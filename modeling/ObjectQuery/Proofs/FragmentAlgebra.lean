import ObjectQuery.Sql.Fragment

/-!
# The algebra of fragments

Fragments form a monoid under putting one behind the other, and texts without values are a
submonoid of it.  Text and values are put together in the same order, so the values of a
compound fragment are read off without looking at its text.

## Main Statements

* `Fragment.append_assoc`, `Fragment.empty_append`, `Fragment.append_empty` — the monoid laws
* `Fragment.values_join` — the values of joined fragments
* `Fragment.join_empty_append` — joining without a separator splits anywhere
* `Fragment.PartOf.join` — joined fragments are parts of the whole
-/

namespace ObjectQuery.Sql.Fragment

variable (a b c : Fragment)

/-! ### Text and values of compound fragments -/

@[simp] theorem sql_append : (a ++ b).sql = a.sql ++ b.sql := rfl

@[simp] theorem values_append : (a ++ b).values = a.values ++ b.values := rfl

@[simp] theorem sql_text (t : String) : (text t).sql = t := rfl

@[simp] theorem values_text (t : String) : (text t).values = [] := rfl

@[simp] theorem sql_placeholder (v : Value) : (placeholder v).sql = "?" := rfl

@[simp] theorem values_placeholder (v : Value) : (placeholder v).values = [v] := rfl

@[simp] theorem values_empty : empty.values = [] := rfl

/-- Fragments with the same text and the same values are equal. -/
theorem eq_of_sql_of_values {a b : Fragment} (hsql : a.sql = b.sql)
    (hvalues : a.values = b.values) : a = b := by
  cases a
  cases b
  cases hsql
  cases hvalues
  rfl

/-! ### The monoid laws -/

theorem append_assoc : a ++ b ++ c = a ++ (b ++ c) :=
  eq_of_sql_of_values String.append_assoc (List.append_assoc _ _ _)

@[simp] theorem empty_append : empty ++ a = a :=
  eq_of_sql_of_values String.empty_append rfl

@[simp] theorem append_empty : a ++ empty = a :=
  eq_of_sql_of_values String.append_empty (List.append_nil _)

/-- The text without characters is the fragment without anything. -/
@[simp] theorem text_empty : text "" = empty := rfl

/-! ### Joined fragments -/

variable (separator : String)

/-- A fragment in front of others is followed by a separator. -/
theorem join_cons {parts : List Fragment} (h : parts ≠ []) :
    join separator (a :: parts) = a ++ text separator ++ join separator parts := by
  cases parts with
  | nil => exact absurd rfl h
  | cons b parts => rfl

/-- Joining keeps the values of the parts in order. -/
@[simp] theorem values_join (parts : List Fragment) :
    (join separator parts).values = parts.flatMap (·.values) := by
  induction parts with
  | nil => rfl
  | cons a parts ih =>
    cases parts with
    | nil => rw [join, List.flatMap_cons, List.flatMap_nil, List.append_nil]
    | cons b parts =>
      rw [join_cons a separator (List.cons_ne_nil b parts), values_append, values_append,
        values_text, List.append_nil, ih]
      rfl

/-- Without a separator joining is putting one behind the other. -/
theorem join_empty_cons (parts : List Fragment) :
    join "" (a :: parts) = a ++ join "" parts := by
  cases parts with
  | nil => exact (append_empty a).symm
  | cons b parts => rw [join_cons a "" (List.cons_ne_nil b parts), text_empty, append_empty]

theorem join_empty_append (parts rest : List Fragment) :
    join "" (parts ++ rest) = join "" parts ++ join "" rest := by
  induction parts with
  | nil => exact (empty_append _).symm
  | cons a parts ih =>
    rw [List.cons_append, join_empty_cons, join_empty_cons, ih, append_assoc]

/-! ### Parts -/

/-- A fragment stands somewhere in another one, with its values. -/
def PartOf : Prop := ∃ front back, b = front ++ a ++ back

namespace PartOf

variable {a b c}

theorem refl (a : Fragment) : a.PartOf a := by
  refine ⟨empty, empty, ?_⟩
  rw [empty_append, append_empty]

theorem behind (h : a.PartOf b) (c : Fragment) : a.PartOf (c ++ b) := by
  obtain ⟨front, back, rfl⟩ := h
  refine ⟨c ++ front, back, ?_⟩
  rw [append_assoc, append_assoc, append_assoc]

theorem before (h : a.PartOf b) (c : Fragment) : a.PartOf (b ++ c) := by
  obtain ⟨front, back, rfl⟩ := h
  exact ⟨front, back ++ c, append_assoc _ _ _⟩

theorem trans (h : a.PartOf b) (h' : b.PartOf c) : a.PartOf c := by
  obtain ⟨front, back, rfl⟩ := h'
  exact (h.behind front).before back

/-- Each of the fragments that are joined is a part of the whole. -/
theorem join (separator : String) {parts : List Fragment} (h : a ∈ parts) :
    a.PartOf (join separator parts) := by
  induction parts with
  | nil => cases h
  | cons part parts ih =>
    rcases List.mem_cons.mp h with rfl | h
    · cases parts with
      | nil => exact .refl a
      | cons next parts => exact ((PartOf.refl a).before _).before _
    · rw [join_cons part separator (List.ne_nil_of_mem h)]
      exact (ih h).behind _

end PartOf

end ObjectQuery.Sql.Fragment
