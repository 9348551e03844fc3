import Mathlib.Data.List.Nodup
import Mathlib.Data.List.Perm.Subperm
import Mathlib.Data.List.Range
import ObjectQuery.Query.Graph

/-!
# The walk of a graph

A graph is walked from node 0 with a stack of nodes still to visit.  Because the partner of a
node always has a smaller number, the walk reaches every node, and reaches it once.

The walk is bounded by the number of nodes rather than by the stack, so that it ends by
construction; `WalkState` is the invariant that shows the bound is never what ends it.

## Main Statements

* `Graph.partner?_lt`, `Graph.exists_partner?` — who has a partner
* `Graph.WalkState.step`, `Graph.WalkState.run` — one visit, and all of them
* `Graph.walk_perm` — the walk visits every node exactly once
* `Graph.walk_eq_cons` — the first node comes first, all others have partners
* `Graph.partner_before_walk` — every node is walked after its partner
* `Graph.walk_congr` — graphs with the same partners are walked alike
-/

namespace ObjectQuery.Query.Graph

variable {g : Graph}

/-! ### Partners and children -/

/-- A node number is in range exactly when it has a node. -/
theorem exists_node?_iff {id : Nat} : (∃ n, g.node? id = some n) ↔ id < g.size := by
  rw [node?, size, ← Option.isSome_iff_exists, Option.isSome_map, isSome_getElem?]

/-- Looking up a node succeeds exactly with the node of that number. -/
theorem node_eq_ok_iff {id : Nat} {n : Node} : g.node id = .ok n ↔ g.node? id = some n := by
  unfold node
  cases g.node? id <;> simp

/-- Some node is returned if one with a number is. -/
theorem anyReturned_iff :
    g.anyReturned = true ↔ ∃ k, ((g.node? k).any fun n => n.returned) = true := by
  rw [anyReturned, List.any_eq_true]
  constructor
  · rintro ⟨slot, hslot, hreturned⟩
    obtain ⟨k, hk⟩ := List.mem_iff_getElem?.mp hslot
    exact ⟨k, by rw [node?, hk]; exact hreturned⟩
  · rintro ⟨k, hreturned⟩
    obtain ⟨n, hn, hreturned⟩ := Option.any_eq_true .. |>.mp hreturned
    obtain ⟨slot, hslot, rfl⟩ := Option.map_eq_some_iff.mp hn
    exact ⟨slot, List.mem_of_getElem? hslot, hreturned⟩

/-- The partner of a node comes before it, and only nodes of the graph have one. -/
theorem partner?_lt {id p : Nat} (h : g.partner? id = some p) : p < id ∧ id < g.size := by
  obtain ⟨s, hs, hp⟩ := Option.bind_eq_some_iff.mp h
  have hsize : id < g.size := (List.getElem?_eq_some_iff.mp hs).1
  have hadmits := g.admitted id s hs
  rw [hp] at hadmits
  refine ⟨?_, hsize⟩
  cases id with
  | zero => cases hadmits
  | succ id =>
    cases hd : g.direction with
    | forward =>
      rw [hd] at hadmits
      have : p = id := hadmits
      omega
    | reverse =>
      rw [hd] at hadmits
      have : p ≤ id := hadmits
      omega

/-- The first node has no partner. -/
theorem partner?_zero : g.partner? 0 = none := by
  cases h : g.partner? 0 with
  | none => rfl
  | some p => exact absurd (partner?_lt h).1 (Nat.not_lt_zero p)

/-- Every other node has one. -/
theorem exists_partner? {id : Nat} (hpos : 0 < id) (hid : id < g.size) :
    ∃ p, g.partner? id = some p := by
  obtain ⟨id, rfl⟩ : ∃ k, id = k + 1 := ⟨id - 1, by omega⟩
  have hs : g.slots[id + 1]? = some g.slots[id + 1] := List.getElem?_eq_getElem hid
  have hadmits := g.admitted (id + 1) _ hs
  cases hp : g.slots[id + 1].partner with
  | none =>
    rw [hp] at hadmits
    cases hadmits
  | some p => exact ⟨p, by rw [partner?, hs, Option.bind_some, hp]⟩

/-- All nodes but the first have partners. -/
theorem partner?_isSome_iff {id : Nat} (hid : id < g.size) :
    (g.partner? id).isSome = true ↔ id ≠ 0 := by
  rw [Option.isSome_iff_exists]
  constructor
  · rintro ⟨p, hp⟩ rfl
    exact Nat.not_lt_zero p (partner?_lt hp).1
  · exact fun hne => exists_partner? (Nat.pos_of_ne_zero hne) hid

/-- In a chain the partner is the predecessor. -/
theorem partner?_succ_of_forward (hd : g.direction = .forward) {id : Nat}
    (hid : id + 1 < g.size) : g.partner? (id + 1) = some id := by
  obtain ⟨p, hp⟩ := exists_partner? (Nat.succ_pos id) hid
  obtain ⟨s, hs, hsp⟩ := Option.bind_eq_some_iff.mp hp
  have hadmits := g.admitted (id + 1) s hs
  rw [hsp, hd] at hadmits
  have : p = id := hadmits
  rw [hp, this]

/-- In a chain every node follows its partner. -/
theorem eq_succ_of_partner? (hd : g.direction = .forward) {id partner : Nat}
    (h : g.partner? id = some partner) : id = partner + 1 := by
  obtain ⟨hlt, hsize⟩ := partner?_lt h
  obtain ⟨k, rfl⟩ : ∃ k, id = k + 1 := ⟨id - 1, by omega⟩
  rw [partner?_succ_of_forward hd hsize] at h
  cases h
  rfl

/-- The children of a node are the nodes whose partner it is. -/
theorem mem_children {id child : Nat} : child ∈ g.children id ↔ g.partner? child = some id := by
  rw [children, List.mem_filter, List.mem_range, beq_iff_eq]
  constructor
  · exact fun h => h.2
  · exact fun h => ⟨(partner?_lt h).2, h⟩

theorem nodup_children (id : Nat) : (g.children id).Nodup := List.nodup_range.filter _

/-- In a chain the only child is the successor. -/
theorem children_of_forward (hd : g.direction = .forward) (id : Nat) :
    g.children id = if id + 1 < g.size then [id + 1] else [] := by
  have hmem : ∀ child, child ∈ g.children id ↔ child = id + 1 ∧ id + 1 < g.size := by
    intro child
    rw [mem_children]
    constructor
    · intro hp
      obtain rfl := eq_succ_of_partner? hd hp
      exact ⟨rfl, (partner?_lt hp).2⟩
    · rintro ⟨rfl, hsize⟩
      exact partner?_succ_of_forward hd hsize
  split
  · next hlt =>
    refine List.perm_singleton.mp ((List.perm_ext_iff_of_nodup (nodup_children id)
      (List.nodup_singleton _)).mpr fun child => ?_)
    rw [hmem, List.mem_singleton]
    exact and_iff_left hlt
  · next hge =>
    refine List.eq_nil_iff_forall_not_mem.mpr fun child hchild => ?_
    exact hge ((hmem child).mp hchild).2

/-- In a chain the first child is the successor. -/
theorem head?_children_of_forward (hd : g.direction = .forward) (id : Nat) :
    (g.children id).head? = if id + 1 < g.size then some (id + 1) else none := by
  rw [children_of_forward hd]
  split
  · rfl
  · rfl

/-! ### The state of a walk -/

/-- What holds between two visits: no node is visited or waiting twice, a node is only
reached after its partner, and the children of a visited node are visited or waiting. -/
structure WalkState (g : Graph) (visited stack : List Nat) : Prop where
  nodup : (visited ++ stack).Nodup
  lt_size : ∀ id ∈ visited ++ stack, id < g.size
  partner_visited : ∀ id ∈ visited ++ stack, ∀ p, g.partner? id = some p → p ∈ visited
  children_reached : ∀ id p, g.partner? id = some p → p ∈ visited → id ∈ visited ++ stack
  root_reached : 0 ∈ visited ++ stack

namespace WalkState

variable {visited stack : List Nat}

/-- A walk starts with the first node waiting. -/
theorem start (h : 0 < g.size) : WalkState g [] [0] where
  nodup := List.nodup_singleton 0
  lt_size := by
    intro id hid
    rw [List.nil_append, List.mem_singleton] at hid
    exact hid ▸ h
  partner_visited := by
    intro id hid p hp
    rw [List.nil_append, List.mem_singleton] at hid
    rw [hid, partner?_zero] at hp
    cases hp
  children_reached := fun _ _ _ hp => absurd hp List.not_mem_nil
  root_reached := List.mem_singleton_self 0

/-- One visit keeps the state: the children of the visited node are new, because a node is
only reached after its partner. -/
theorem step {id : Nat} (h : WalkState g visited (id :: stack)) :
    WalkState g (visited ++ [id]) (g.children id ++ stack) := by
  have hmem : ∀ k, k ∈ (visited ++ [id]) ++ (g.children id ++ stack) ↔
      k ∈ visited ++ id :: stack ∨ g.partner? k = some id := by
    intro k
    simp only [List.mem_append, List.mem_cons, List.not_mem_nil, or_false, mem_children]
    tauto
  -- A child that was reached before would have its partner among the visited nodes.
  have hnew : ∀ k, g.partner? k = some id → k ∉ visited ++ id :: stack := by
    intro k hk hreached
    have hid : id ∈ visited := h.partner_visited k hreached id hk
    exact List.disjoint_of_nodup_append h.nodup hid List.mem_cons_self
  refine ⟨?_, ?_, ?_, ?_, ?_⟩
  · have hperm : (g.children id ++ (visited ++ id :: stack)).Perm
        ((visited ++ [id]) ++ (g.children id ++ stack)) := by
      rw [List.append_cons visited id stack, ← List.append_assoc (g.children id),
        ← List.append_assoc (visited ++ [id])]
      exact List.perm_append_comm.append_right stack
    refine hperm.nodup_iff.mp (List.nodup_append'.mpr ⟨nodup_children id, h.nodup, ?_⟩)
    exact fun k hk => hnew k (mem_children.mp hk)
  · intro k hk
    rcases (hmem k).mp hk with hold | hchild
    · exact h.lt_size k hold
    · exact (partner?_lt hchild).2
  · intro k hk p hp
    rcases (hmem k).mp hk with hold | hchild
    · exact List.mem_append_left _ (h.partner_visited k hold p hp)
    · rw [hchild] at hp
      cases hp
      exact List.mem_append_right _ (List.mem_singleton_self id)
  · intro k p hp hvisited
    refine (hmem k).mpr ?_
    rcases List.mem_append.mp hvisited with hold | hlast
    · exact Or.inl (h.children_reached k p hp hold)
    · rw [List.mem_singleton.mp hlast] at hp
      exact Or.inr hp
  · exact (hmem 0).mpr (Or.inl h.root_reached)

/-- No more nodes are visited and waiting than there are. -/
theorem length_le (h : WalkState g visited stack) :
    visited.length + stack.length ≤ g.size := by
  have hsub : visited ++ stack ⊆ List.range g.size :=
    fun id hid => List.mem_range.mpr (h.lt_size id hid)
  have hle := (List.subperm_of_subset h.nodup hsub).length_le
  rwa [List.length_append, List.length_range] at hle

/-- With enough steps left for the nodes not yet visited, a walk ends with an empty stack. -/
theorem run (fuel : Nat) (h : WalkState g visited stack)
    (henough : g.size ≤ visited.length + fuel) :
    WalkState g (visited ++ g.walkFrom fuel stack) [] := by
  induction fuel generalizing visited stack with
  | zero =>
    have hempty : stack = [] := by
      have := h.length_le
      exact List.length_eq_zero_iff.mp (by omega)
    rw [walkFrom, List.append_nil]
    exact hempty ▸ h
  | succ fuel ih =>
    cases stack with
    | nil =>
      rw [walkFrom, List.append_nil]
      exact h
    | cons id stack =>
      rw [walkFrom, List.append_cons]
      refine ih h.step ?_
      rw [List.length_append, List.length_singleton]
      omega

/-- A node is visited after its partner. -/
theorem partner_before (fuel : Nat) (h : WalkState g visited stack) {before after : List Nat}
    {id p : Nat} (hwalk : g.walkFrom fuel stack = before ++ id :: after)
    (hp : g.partner? id = some p) : p ∈ visited ++ before := by
  induction fuel generalizing visited stack before with
  | zero =>
    rw [walkFrom] at hwalk
    exact absurd hwalk.symm (List.append_ne_nil_of_right_ne_nil _ (List.cons_ne_nil _ _))
  | succ fuel ih =>
    cases stack with
    | nil =>
      rw [walkFrom] at hwalk
      exact absurd hwalk.symm (List.append_ne_nil_of_right_ne_nil _ (List.cons_ne_nil _ _))
    | cons k stack =>
      rw [walkFrom] at hwalk
      cases before with
      | nil =>
        cases hwalk
        have hvisited := h.partner_visited id (by simp) p hp
        rwa [List.append_nil]
      | cons first before =>
        obtain ⟨rfl, hrest⟩ := List.cons.inj hwalk
        have hlater := ih h.step hrest
        rwa [List.append_assoc] at hlater

/-- A walk without waiting nodes has visited every node: by induction on the number, each
node follows its partner. -/
theorem mem_of_lt (h : WalkState g visited []) {id : Nat} (hid : id < g.size) :
    id ∈ visited := by
  induction id using Nat.strongRecOn with
  | ind id ih =>
    rcases Nat.eq_zero_or_pos id with rfl | hpos
    · simpa using h.root_reached
    · obtain ⟨p, hp⟩ := exists_partner? hpos hid
      have hlt := (partner?_lt hp).1
      have hreached := h.children_reached id p hp (ih p hlt (by omega))
      rwa [List.append_nil] at hreached

end WalkState

/-! ### The whole walk -/

/-- The walk depends on the partners of the nodes alone. -/
theorem walk_congr {g' : Graph} (hsize : g'.size = g.size)
    (hpartner : ∀ k, g'.partner? k = g.partner? k) : g'.walk = g.walk := by
  have hchildren : ∀ k, g'.children k = g.children k := by
    intro k
    rw [children, children, hsize]
    simp only [hpartner]
  have hfrom : ∀ fuel stack, g'.walkFrom fuel stack = g.walkFrom fuel stack := by
    intro fuel
    induction fuel with
    | zero => exact fun _ => rfl
    | succ fuel ih =>
      intro stack
      cases stack with
      | nil => rfl
      | cons k stack => rw [walkFrom, walkFrom, ih, hchildren]
  rw [walk, walk, hsize, hfrom]

theorem walk_state (h : 0 < g.size) : WalkState g g.walk [] := by
  rw [walk, if_neg (Nat.ne_of_gt h)]
  exact (WalkState.start h).run g.size (by simp)

/-- A node is walked exactly when it is in the graph. -/
@[simp] theorem mem_walk {id : Nat} : id ∈ g.walk ↔ id < g.size := by
  rcases Nat.eq_zero_or_pos g.size with hempty | hpos
  · rw [walk, if_pos hempty, hempty]
    simp
  · constructor
    · exact fun h => (walk_state hpos).lt_size id (List.mem_append_left _ h)
    · exact (walk_state hpos).mem_of_lt

theorem nodup_walk : g.walk.Nodup := by
  rcases Nat.eq_zero_or_pos g.size with hempty | hpos
  · rw [walk, if_pos hempty]
    exact List.nodup_nil
  · have := (walk_state hpos).nodup
    rwa [List.append_nil] at this

/-- The walk visits a node after its partner. -/
theorem partner_before_walk {before after : List Nat} {id p : Nat}
    (hwalk : g.walk = before ++ id :: after) (hp : g.partner? id = some p) : p ∈ before := by
  have hpos : 0 < g.size := Nat.lt_of_le_of_lt (Nat.zero_le id) (partner?_lt hp).2
  rw [walk, if_neg (Nat.ne_of_gt hpos)] at hwalk
  exact (WalkState.start hpos).partner_before g.size hwalk hp

/-- The walk visits every node exactly once. -/
theorem walk_perm : g.walk.Perm (List.range g.size) :=
  (List.perm_ext_iff_of_nodup nodup_walk List.nodup_range).mpr fun _ => by
    rw [mem_walk, List.mem_range]

/-- The first node is walked first, and all others are joined to a partner. -/
theorem walk_eq_cons (h : 0 < g.size) :
    ∃ rest, g.walk = 0 :: rest ∧ ∀ id ∈ rest, ∃ p, g.partner? id = some p := by
  obtain ⟨fuel, hfuel⟩ : ∃ k, g.size = k + 1 := ⟨g.size - 1, by omega⟩
  have hwalk : g.walk = 0 :: g.walkFrom fuel (g.children 0 ++ []) := by
    rw [walk, if_neg (Nat.ne_of_gt h), hfuel, walkFrom]
  refine ⟨_, hwalk, fun id hid => ?_⟩
  have hin : id ∈ g.walk := hwalk ▸ List.mem_cons_of_mem 0 hid
  have hnodup : (0 :: g.walkFrom fuel (g.children 0 ++ [])).Nodup := hwalk ▸ nodup_walk
  have hne : id ≠ 0 := fun h0 => (List.nodup_cons.mp hnodup).1 (h0 ▸ hid)
  exact exists_partner? (Nat.pos_of_ne_zero hne) (mem_walk.mp hin)

end ObjectQuery.Query.Graph
