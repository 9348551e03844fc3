import Mathlib.Data.List.Forall2

/-!
# Successful and failed computations

A computation that may fail succeeds exactly when each of its steps does, and a pass over a
list exactly when each item does; the error of a failed one is that of a step or of an item.
Every statement about a compilation is read off its steps with these laws.

## Main Definitions

* `FailAlike` — two computations that fail alike, or both succeed

## Main Statements

* `bind_eq_ok_iff`, `map_eq_ok_iff` — one step
* `exists_bind_eq_ok_iff`, `exists_map_eq_ok_iff` — when one step succeeds at all
* `mapM_eq_ok_iff` — a pass over a list, as a relation between items and results
* `exists_mapM_eq_ok_iff` — when a pass succeeds at all
* `mapM_append_cons_eq_ok_iff` — a pass around one item
* `exists_mapM_of_mapM` — a pass that goes along with another one
* `exists_mapM_filter` — a pass that leaves out what would contribute nothing
* `forall₂_trans` — relations between lists, one behind the other
* `flatMap_of_forall₂` — collecting from the results instead of the items
* `bind_congr_of_ok` — steps that agree on the results that there are
* `map_mapM`, `map_bind_congr` — converted results
* `bind_eq_error_iff`, `map_eq_error_iff`, `exists_of_mapM_eq_error` — where an error is from
* `error_or_ok_of_map_eq` — two computations whose results convert alike
* `FailAlike.bind`, `FailAlike.map`, `FailAlike.mapM` — two computations with the same errors
-/

namespace ObjectQuery.Outcome

variable {ε α β γ : Type}

/-- A step with a continuation succeeds exactly when both do. -/
theorem bind_eq_ok_iff {x : Except ε α} {f : α → Except ε β} {b : β} :
    (x >>= f) = .ok b ↔ ∃ a, x = .ok a ∧ f a = .ok b := by
  cases x with
  | error e =>
    constructor
    · intro h
      cases h
    · rintro ⟨_, h, -⟩
      cases h
  | ok a =>
    constructor
    · intro h
      exact ⟨a, rfl, h⟩
    · rintro ⟨_, ha, h⟩
      cases ha
      exact h

/-- A step whose result is converted succeeds exactly when the step does. -/
theorem map_eq_ok_iff {x : Except ε α} {f : α → β} {b : β} :
    x.map f = .ok b ↔ ∃ a, x = .ok a ∧ f a = b := by
  cases x with
  | error e => simp [Except.map]
  | ok a => simp [Except.map]

/-- Converting the result does not change whether there is one. -/
theorem exists_map_eq_ok_iff {x : Except ε α} {f : α → β} :
    (∃ b, x.map f = .ok b) ↔ ∃ a, x = .ok a := by
  constructor
  · rintro ⟨b, h⟩
    obtain ⟨a, ha, -⟩ := map_eq_ok_iff.mp h
    exact ⟨a, ha⟩
  · rintro ⟨a, ha⟩
    exact ⟨f a, map_eq_ok_iff.mpr ⟨a, ha, rfl⟩⟩

/-- A step with a continuation succeeds for some result exactly when the step succeeds with
something that the continuation accepts. -/
theorem exists_bind_eq_ok_iff {x : Except ε α} {f : α → Except ε β} :
    (∃ b, (x >>= f) = .ok b) ↔ ∃ a, x = .ok a ∧ ∃ b, f a = .ok b := by
  simp only [bind_eq_ok_iff]
  constructor
  · rintro ⟨b, a, ha, hb⟩
    exact ⟨a, ha, b, hb⟩
  · rintro ⟨a, ha, b, hb⟩
    exact ⟨b, a, ha, hb⟩

/-- A pass over a list gives one result for each item, in order. -/
theorem mapM_eq_ok_iff {f : α → Except ε β} {xs : List α} {ys : List β} :
    xs.mapM f = .ok ys ↔ List.Forall₂ (fun x y => f x = .ok y) xs ys := by
  induction xs generalizing ys with
  | nil =>
    rw [List.forall₂_nil_left_iff]
    constructor
    · intro h
      cases h
      rfl
    · rintro rfl
      rfl
  | cons x xs ih =>
    rw [List.mapM_cons, bind_eq_ok_iff, List.forall₂_cons_left_iff]
    constructor
    · rintro ⟨y, hy, h⟩
      obtain ⟨rest, hrest, h⟩ := bind_eq_ok_iff.mp h
      cases h
      exact ⟨y, rest, hy, ih.mp hrest, rfl⟩
    · rintro ⟨y, rest, hy, hrest, rfl⟩
      exact ⟨y, hy, bind_eq_ok_iff.mpr ⟨rest, ih.mpr hrest, rfl⟩⟩

/-- A pass over a list succeeds exactly when every item does. -/
theorem exists_mapM_eq_ok_iff {f : α → Except ε β} {xs : List α} :
    (∃ ys, xs.mapM f = .ok ys) ↔ ∀ x ∈ xs, ∃ y, f x = .ok y := by
  simp only [mapM_eq_ok_iff]
  induction xs with
  | nil => simp
  | cons x xs ih =>
    rw [List.forall_mem_cons, ← ih]
    constructor
    · rintro ⟨ys, h⟩
      obtain ⟨y, rest, hy, hrest, -⟩ := List.forall₂_cons_left_iff.mp h
      exact ⟨⟨y, hy⟩, rest, hrest⟩
    · rintro ⟨⟨y, hy⟩, rest, hrest⟩
      exact ⟨y :: rest, .cons hy hrest⟩

/-- A pass over a list succeeds exactly when the passes in front of an item and behind it do,
and the item does. -/
theorem mapM_append_cons_eq_ok_iff {f : α → Except ε β} {xs rest : List α} {x : α}
    {ys : List β} :
    (xs ++ x :: rest).mapM f = .ok ys ↔
      ∃ us y vs, xs.mapM f = .ok us ∧ f x = .ok y ∧ rest.mapM f = .ok vs ∧
        ys = us ++ y :: vs := by
  rw [List.mapM_append, List.mapM_cons]
  simp only [bind_eq_ok_iff]
  constructor
  · rintro ⟨us, hus, _, ⟨y, hy, vs, hvs, h⟩, hys⟩
    cases h
    cases hys
    exact ⟨us, y, vs, hus, hy, hvs, rfl⟩
  · rintro ⟨us, y, vs, hus, hy, hvs, rfl⟩
    exact ⟨us, hus, _, ⟨y, hy, vs, hvs, rfl⟩, rfl⟩

/-- Everything on the right of a relation between lists has a partner on the left. -/
theorem exists_of_forall₂ {R : α → β → Prop} {xs : List α} {ys : List β}
    (h : List.Forall₂ R xs ys) {y : β} (hy : y ∈ ys) : ∃ x ∈ xs, R x y := by
  induction h with
  | nil => cases hy
  | cons hxy _ ih =>
    rcases List.mem_cons.mp hy with rfl | hmem
    · exact ⟨_, List.mem_cons_self, hxy⟩
    · obtain ⟨x, hx, hR⟩ := ih hmem
      exact ⟨x, List.mem_cons_of_mem _ hx, hR⟩

/-- Relations between lists, one behind the other. -/
theorem forall₂_trans {R : α → β → Prop} {S : β → γ → Prop} {T : α → γ → Prop} {xs : List α}
    {ys : List β} {zs : List γ} (h : ∀ x y z, R x y → S y z → T x z) (hR : List.Forall₂ R xs ys)
    (hS : List.Forall₂ S ys zs) : List.Forall₂ T xs zs := by
  induction hR generalizing zs with
  | nil =>
    cases hS
    exact .nil
  | cons hxy _ ih =>
    cases hS with
    | cons hyz hrest => exact .cons (h _ _ _ hxy hyz) (ih hrest)

/-- Every result of a pass is that of some item. -/
theorem exists_of_mem_mapM {f : α → Except ε β} {xs : List α} {ys : List β}
    (h : xs.mapM f = .ok ys) {y : β} (hy : y ∈ ys) : ∃ x ∈ xs, f x = .ok y :=
  exists_of_forall₂ (mapM_eq_ok_iff.mp h) hy

/-- The result of every item is among those of a pass. -/
theorem mem_of_mapM {f : α → Except ε β} {xs : List α} {ys : List β} (h : xs.mapM f = .ok ys)
    {x : α} (hx : x ∈ xs) {y : β} (hy : f x = .ok y) : y ∈ ys := by
  have hall := mapM_eq_ok_iff.mp h
  induction hall with
  | nil => cases hx
  | @cons x' z xs ys hz hrest ih =>
    rcases List.mem_cons.mp hx with rfl | hmem
    · cases hz.symm.trans hy
      exact List.mem_cons_self
    · exact List.mem_cons_of_mem _ (ih (mapM_eq_ok_iff.mpr hrest) hmem)

/-- A pass over a list depends on the computations for its items alone. -/
theorem mapM_congr {f g : α → Except ε β} {xs : List α} (h : ∀ x ∈ xs, f x = g x) :
    xs.mapM f = xs.mapM g := by
  induction xs with
  | nil => rfl
  | cons x xs ih =>
    rw [List.mapM_cons, List.mapM_cons, h x List.mem_cons_self,
      ih fun x hx => h x (List.mem_cons_of_mem _ hx)]

/-- A pass that succeeds wherever another one does has results that go with those of the
other. -/
theorem exists_mapM_of_mapM {f : α → Except ε β} {g : α → Except ε γ} {R : β → γ → Prop}
    {xs : List α} {ys : List β} (h : xs.mapM f = .ok ys)
    (step : ∀ x ∈ xs, ∀ y, f x = .ok y → ∃ z, g x = .ok z ∧ R y z) :
    ∃ zs, xs.mapM g = .ok zs ∧ List.Forall₂ R ys zs := by
  simp only [mapM_eq_ok_iff] at h ⊢
  induction h with
  | nil => exact ⟨[], .nil, .nil⟩
  | cons hxy _ ih =>
    obtain ⟨z, hz, hR⟩ := step _ List.mem_cons_self _ hxy
    obtain ⟨zs, hzs, hrest⟩ := ih fun x hx => step x (List.mem_cons_of_mem _ hx)
    exact ⟨z :: zs, .cons hz hzs, .cons hR hrest⟩

/-- A pass over the items that a test keeps, where the others would contribute nothing to what
is collected from the results. -/
theorem exists_mapM_filter {f : α → Except ε β} {keep : α → Bool} {collect : β → List γ}
    {xs : List α} {ys : List β} (h : xs.mapM f = .ok ys)
    (dropped : ∀ x ∈ xs, keep x = false → ∀ y, f x = .ok y → collect y = []) :
    ∃ zs, (xs.filter keep).mapM f = .ok zs ∧ ys.flatMap collect = zs.flatMap collect := by
  rw [mapM_eq_ok_iff] at h
  induction h with
  | nil => exact ⟨[], rfl, rfl⟩
  | @cons x y xs ys hy _ ih =>
    obtain ⟨zs, hzs, hcollect⟩ := ih fun x hx => dropped x (List.mem_cons_of_mem _ hx)
    cases hkeep : keep x with
    | true =>
      refine ⟨y :: zs, ?_, by rw [List.flatMap_cons, List.flatMap_cons, hcollect]⟩
      rw [List.filter_cons_of_pos hkeep, mapM_eq_ok_iff]
      exact .cons hy (mapM_eq_ok_iff.mp hzs)
    | false =>
      have hnone := dropped x List.mem_cons_self hkeep y hy
      refine ⟨zs, ?_, by rw [List.flatMap_cons, hnone, List.nil_append, hcollect]⟩
      rwa [List.filter_cons_of_neg (Bool.eq_false_iff.mp hkeep)]

/-- What is collected from the results is what is collected from the items, if each result
contributes as its item does. -/
theorem flatMap_of_forall₂ {R : α → β → Prop} {f : α → List γ} {g : β → List γ} {xs : List α}
    {ys : List β} (h : List.Forall₂ R xs ys) (contributes : ∀ x ∈ xs, ∀ y, R x y → g y = f x) :
    ys.flatMap g = xs.flatMap f := by
  induction h with
  | nil => rfl
  | cons hxy _ ih =>
    rw [List.flatMap_cons, List.flatMap_cons, contributes _ List.mem_cons_self _ hxy,
      ih fun x hx => contributes x (List.mem_cons_of_mem _ hx)]

/-- Converting the results of a pass is a pass that converts each result. -/
theorem map_mapM (f : α → Except ε β) (p : β → γ) (xs : List α) :
    (xs.mapM f).map (List.map p) = xs.mapM fun x => (f x).map p := by
  induction xs with
  | nil => rfl
  | cons x xs ih =>
    rw [List.mapM_cons, List.mapM_cons, ← ih]
    cases f x with
    | error e => rfl
    | ok y => cases xs.mapM f <;> rfl

/-- Equal steps with continuations that agree on the result. -/
theorem bind_congr_of_ok {x y : Except ε α} (hxy : x = y) {f g : α → Except ε β}
    (h : ∀ a, y = .ok a → f a = g a) : (x >>= f) = (y >>= g) := by
  subst hxy
  cases x with
  | error e => rfl
  | ok a => exact h a rfl

/-- Equal steps with continuations whose results convert alike. -/
theorem map_bind_congr {x y : Except ε α} (hxy : x = y) {f g : α → Except ε β} {p : β → γ}
    (h : ∀ a, y = .ok a → (f a).map p = (g a).map p) :
    (x >>= f).map p = (y >>= g).map p := by
  subst hxy
  cases x with
  | error e => rfl
  | ok a => exact h a rfl

/-! ### Errors -/

/-- The error of a step with a continuation is that of the step or of the continuation. -/
theorem bind_eq_error_iff {x : Except ε α} {f : α → Except ε β} {e : ε} :
    (x >>= f) = .error e ↔ x = .error e ∨ ∃ a, x = .ok a ∧ f a = .error e := by
  cases x with
  | error e' =>
    constructor
    · intro h
      cases h
      exact Or.inl rfl
    · rintro (h | ⟨_, h, -⟩)
      · cases h
        rfl
      · cases h
  | ok a =>
    constructor
    · intro h
      exact Or.inr ⟨a, rfl, h⟩
    · rintro (h | ⟨_, ha, h⟩)
      · cases h
      · cases ha
        exact h

/-- Converting the result does not change the error. -/
theorem map_eq_error_iff {x : Except ε α} {f : α → β} {e : ε} :
    x.map f = .error e ↔ x = .error e := by
  cases x with
  | error e' => simp [Except.map]
  | ok a => simp [Except.map]

/-- The error of a pass over a list is that of an item. -/
theorem exists_of_mapM_eq_error {f : α → Except ε β} {xs : List α} {e : ε}
    (h : xs.mapM f = .error e) : ∃ x ∈ xs, f x = .error e := by
  induction xs with
  | nil => cases h
  | cons x xs ih =>
    rw [List.mapM_cons, bind_eq_error_iff] at h
    rcases h with hx | ⟨_, -, h⟩
    · exact ⟨x, List.mem_cons_self, hx⟩
    · rcases bind_eq_error_iff.mp h with hrest | ⟨_, -, h⟩
      · obtain ⟨x', hx', herror⟩ := ih hrest
        exact ⟨x', List.mem_cons_of_mem _ hx', herror⟩
      · cases h

/-- Computations whose results convert alike fail with one error, or both succeed. -/
theorem error_or_ok_of_map_eq {x y : Except ε α} {p : α → β} (h : x.map p = y.map p) :
    (∃ e, x = .error e ∧ y = .error e) ∨ ∃ a b, x = .ok a ∧ y = .ok b ∧ p a = p b := by
  cases x with
  | error e => exact Or.inl ⟨e, rfl, map_eq_error_iff.mp h.symm⟩
  | ok a =>
    obtain ⟨b, hb, hp⟩ := map_eq_ok_iff.mp h.symm
    exact Or.inr ⟨a, b, rfl, hb, hp.symm⟩

/-! ### Computations that fail alike -/

/-- Two computations that either both succeed or fail with the same error. -/
def FailAlike (x : Except ε α) (y : Except ε β) : Prop := ∀ e, x = .error e ↔ y = .error e

namespace FailAlike

variable {x : Except ε α} {y : Except ε β}

theorem refl (x : Except ε α) : FailAlike x x := fun _ => Iff.rfl

/-- All successes are alike. -/
theorem ok (a : α) (b : β) : FailAlike (.ok a : Except ε α) (.ok b) := by
  intro e
  constructor
  · intro h
    cases h
  · intro h
    cases h

/-- Failures with one error are alike, whatever the successes would have been. -/
theorem error (e : ε) : FailAlike (.error e : Except ε α) (.error e : Except ε β) := by
  intro e'
  rw [Except.error.injEq, Except.error.injEq]

/-- One of the two succeeds if the other does. -/
theorem exists_ok (h : FailAlike x y) {a : α} (ha : x = .ok a) : ∃ b, y = .ok b := by
  cases hy : y with
  | ok b => exact ⟨b, rfl⟩
  | error e =>
    rw [(h e).mpr hy] at ha
    cases ha

/-- Steps that fail alike with continuations that fail alike. -/
theorem bind {γ' : Type} (h : FailAlike x y) {f : α → Except ε γ} {g : β → Except ε γ'}
    (hfg : ∀ a b, x = .ok a → y = .ok b → FailAlike (f a) (g b)) :
    FailAlike (x >>= f) (y >>= g) := by
  cases hx : x with
  | error e =>
    rw [(h e).mp hx]
    exact error e
  | ok a =>
    obtain ⟨b, hy⟩ := h.exists_ok hx
    rw [hy]
    exact hfg a b hx hy

/-- Converting the results does not change the errors. -/
theorem map {γ' : Type} (h : FailAlike x y) (f : α → γ) (g : β → γ') :
    FailAlike (x.map f) (y.map g) := by
  cases hx : x with
  | error e =>
    rw [(h e).mp hx]
    exact error e
  | ok a =>
    obtain ⟨b, hy⟩ := h.exists_ok hx
    rw [hy]
    exact ok (f a) (g b)

/-- Two passes over a list fail alike if they do so at every item. -/
theorem mapM {δ : Type} {f : δ → Except ε α} {g : δ → Except ε β} {xs : List δ}
    (h : ∀ i ∈ xs, FailAlike (f i) (g i)) : FailAlike (xs.mapM f) (xs.mapM g) := by
  induction xs with
  | nil => exact ok [] []
  | cons i xs ih =>
    rw [List.forall_mem_cons] at h
    rw [List.mapM_cons, List.mapM_cons]
    refine h.1.bind fun a b _ _ => ?_
    exact (ih h.2).bind fun as bs _ _ => ok (a :: as) (b :: bs)

/-- Computations that fail alike are equal in what their results have in common. -/
theorem map_eq (h : FailAlike x y) {f : α → γ} {g : β → γ}
    (hfg : ∀ a b, x = .ok a → y = .ok b → f a = g b) : x.map f = y.map g := by
  cases hx : x with
  | error e =>
    rw [(h e).mp hx]
    rfl
  | ok a =>
    obtain ⟨b, hy⟩ := h.exists_ok hx
    rw [hy]
    exact congrArg Except.ok (hfg a b hx hy)

end FailAlike

end ObjectQuery.Outcome
