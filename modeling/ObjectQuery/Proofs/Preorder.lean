import Mathlib.Logic.Relation
import ObjectQuery.Proofs.Walk

/-!
# The walk as a pre-order

A graph is walked with a stack, but the result is the recursive pre-order of its tree: a node,
then everything below its first child, then everything below its second, and so on.  The
recursion ends because children have larger numbers, and the loop because no node gets onto
the stack twice.

## Main Definitions

* `Graph.Loop` — the loop over a stack that grows at its end
* `Graph.preorder` — the recursive pre-order of the tree below a node
* `Graph.Descends` — being below a node

## Main Statements

* `Graph.loop_iff` — the loop ends, with the walk and nothing else
* `Graph.walk_eq_preorder` — the walk is the pre-order of the whole tree
* `Graph.mem_preorder`, `Graph.preorder_infix_walk` — what is below a node is walked in one go
* `Graph.walk_eq_range` — a chain is walked from its first node to its last
-/

namespace ObjectQuery.Query.Graph

variable {g : Graph}

/-! ### The loop -/

/-- A loop that takes the last node off its stack and puts the children of the node there, the
first child last, until the stack is empty. -/
inductive Loop (g : Graph) : (stack order : List Nat) → Prop
  | done : Loop g [] []
  | visit {stack : List Nat} {id : Nat} {order : List Nat}
      (h : Loop g (stack ++ (g.children id).reverse) order) : Loop g (stack ++ [id]) (id :: order)

namespace Loop

/-- What a loop does next. -/
theorem eq_or {stack order : List Nat} (h : Loop g stack order) :
    stack = [] ∧ order = [] ∨ ∃ rest id later, stack = rest ++ [id] ∧ order = id :: later ∧
      Loop g (rest ++ (g.children id).reverse) later := by
  cases h with
  | done => exact Or.inl ⟨rfl, rfl⟩
  | visit h => exact Or.inr ⟨_, _, _, rfl, rfl, h⟩

/-- A loop visits the nodes in one order only. -/
theorem unique {stack order order' : List Nat} (h : Loop g stack order)
    (h' : Loop g stack order') : order = order' := by
  induction h generalizing order' with
  | done =>
    rcases h'.eq_or with ⟨-, rfl⟩ | ⟨rest, id, later, hstack, -⟩
    · rfl
    · exact absurd hstack.symm (by simp)
  | @visit stack id order _ ih =>
    rcases h'.eq_or with ⟨hstack, -⟩ | ⟨rest, id', later, hstack, rfl, hlater⟩
    · exact absurd hstack (by simp)
    · obtain ⟨rfl, hid⟩ := List.append_inj' hstack rfl
      obtain rfl : id = id' := by simpa using hid
      rw [ih hlater]

end Loop

/-- With enough steps left, the bounded walk is that of the loop. -/
theorem WalkState.loop {visited stack : List Nat} (fuel : Nat) (h : WalkState g visited stack)
    (henough : g.size ≤ visited.length + fuel) :
    Loop g stack.reverse (g.walkFrom fuel stack) := by
  induction fuel generalizing visited stack with
  | zero =>
    have hle := h.length_le
    have hempty : stack = [] := List.length_eq_zero_iff.mp (by omega)
    subst hempty
    exact .done
  | succ fuel ih =>
    cases stack with
    | nil => exact .done
    | cons id stack =>
      have hrest := ih h.step (by rw [List.length_append, List.length_singleton]; omega)
      rw [List.reverse_append] at hrest
      rw [List.reverse_cons, walkFrom]
      exact .visit hrest

/-- The loop from the first node ends, and visits the nodes in the order of the walk. -/
theorem loop_iff {order : List Nat} :
    Loop g (if g.size = 0 then [] else [0]) order ↔ order = g.walk := by
  have hloop : Loop g (if g.size = 0 then [] else [0]) g.walk := by
    unfold walk
    split
    · exact .done
    · next hne =>
      have hstart := WalkState.start (Nat.pos_of_ne_zero hne)
      exact hstart.loop g.size (by simp)
  constructor
  · exact fun h => h.unique hloop
  · rintro rfl
    exact hloop

/-! ### Pre-order -/

/-- The nodes below a node and the node itself: the node, then what is below each of its
children. -/
def preorder (g : Graph) (id : Nat) : List Nat :=
  id :: (g.children id).attach.flatMap fun child => g.preorder child.1
termination_by g.size - id
decreasing_by
  have hlt := partner?_lt (mem_children.mp child.2)
  omega

theorem preorder_eq (id : Nat) :
    g.preorder id = id :: (g.children id).flatMap g.preorder := by
  have hattach : (g.children id).attach.flatMap (fun child => g.preorder child.1) =
      ((g.children id).attach.map Subtype.val).flatMap g.preorder :=
    (List.flatMap_map ..).symm
  rw [preorder, hattach, List.attach_map_subtype_val]

/-- With enough steps left, the bounded walk is the pre-order below the waiting nodes. -/
theorem WalkState.preorder {visited stack : List Nat} (fuel : Nat)
    (h : WalkState g visited stack) (henough : g.size ≤ visited.length + fuel) :
    g.walkFrom fuel stack = stack.flatMap g.preorder := by
  induction fuel generalizing visited stack with
  | zero =>
    have hle := h.length_le
    have hempty : stack = [] := List.length_eq_zero_iff.mp (by omega)
    rw [hempty]
    rfl
  | succ fuel ih =>
    cases stack with
    | nil => rfl
    | cons id stack =>
      have hrest := ih h.step (by rw [List.length_append, List.length_singleton]; omega)
      rw [walkFrom, hrest, List.flatMap_append, List.flatMap_cons, preorder_eq]
      rfl

/-- The walk is the pre-order of the whole tree. -/
theorem walk_eq_preorder (h : 0 < g.size) : g.walk = g.preorder 0 := by
  rw [walk, if_neg (Nat.ne_of_gt h), (WalkState.start h).preorder g.size (by simp),
    List.flatMap_singleton]

/-! ### Below a node -/

/-- A node is reached from another one by going from partners to the nodes joined to them. -/
def Descends (g : Graph) : Nat → Nat → Prop :=
  Relation.ReflTransGen fun partner id => g.partner? id = some partner

/-- The pre-order of a node consists of the nodes below it. -/
theorem mem_preorder {id k : Nat} : k ∈ g.preorder id ↔ g.Descends id k := by
  constructor
  · induction id using preorder.induct (g := g) with
    | case1 id ih =>
      intro hk
      rw [preorder_eq, List.mem_cons, List.mem_flatMap] at hk
      rcases hk with rfl | ⟨child, hchild, hk⟩
      · exact .refl
      · exact .head (mem_children.mp hchild) (ih ⟨child, hchild⟩ hk)
  · intro hk
    induction hk using Relation.ReflTransGen.head_induction_on with
    | refl =>
      rw [preorder_eq]
      exact List.mem_cons_self
    | head hchild _ ih =>
      rw [preorder_eq]
      exact List.mem_cons_of_mem _ (List.mem_flatMap.mpr ⟨_, mem_children.mpr hchild, ih⟩)

/-- What is below a child is walked in one go, inside what is below its partner. -/
theorem preorder_infix_partner {id partner : Nat} (h : g.partner? id = some partner) :
    g.preorder id <:+: g.preorder partner := by
  obtain ⟨before, after, hsplit⟩ := List.append_of_mem (mem_children.mpr h)
  refine ⟨partner :: before.flatMap g.preorder, after.flatMap g.preorder, ?_⟩
  rw [preorder_eq partner, hsplit, List.flatMap_append, List.flatMap_cons]
  simp

/-- What is below a node is walked in one go: by induction on the number, going up to the
first node. -/
theorem preorder_infix_walk {id : Nat} (hid : id < g.size) : g.preorder id <:+: g.walk := by
  rw [walk_eq_preorder (Nat.lt_of_le_of_lt (Nat.zero_le id) hid)]
  induction id using Nat.strongRecOn with
  | ind id ih =>
    rcases Nat.eq_zero_or_pos id with rfl | hpos
    · exact List.infix_refl _
    · obtain ⟨partner, hpartner⟩ := exists_partner? hpos hid
      have hlt := (partner?_lt hpartner).1
      exact (preorder_infix_partner hpartner).trans (ih partner hlt (hlt.trans hid))

/-! ### Chains -/

/-- Below a node of a chain are all nodes behind it. -/
theorem preorder_of_forward (hd : g.direction = .forward) {id k : Nat}
    (h : id + (k + 1) = g.size) : g.preorder id = List.range' id (k + 1) := by
  induction k generalizing id with
  | zero =>
    rw [preorder_eq, children_of_forward hd, if_neg (by omega)]
    rfl
  | succ k ih =>
    rw [preorder_eq, children_of_forward hd, if_pos (by omega), List.flatMap_singleton,
      ih (by omega)]
    rfl

/-- A chain is walked from its first node to its last. -/
theorem walk_eq_range (hd : g.direction = .forward) : g.walk = List.range g.size := by
  cases hsize : g.size with
  | zero => rw [walk, if_pos hsize, List.range_zero]
  | succ k =>
    rw [walk_eq_preorder (by omega), preorder_of_forward hd (by omega : 0 + (k + 1) = g.size),
      List.range_eq_range']

end ObjectQuery.Query.Graph
