import ObjectQuery.Proofs.Growth
import ObjectQuery.Proofs.Scoping

/-!
# The names that a compiled graph declares

A statement declares the alias of every node, and two kinds of names made from an alias: that of
the repository table beside a type table, and that of the link row of a join in line.  An alias
is given by the caller or made from the place of the node, and no given alias is compared with a
name that is made.  So the names are distinct exactly when the caller kept the given aliases apart
from each other and from the names that are made.

## Main Definitions

* `Graph.namesOf` — the names that a statement declares for one node
* `Graph.givenAliases`, `Graph.unnamedPositions` — what the aliases of the nodes come from
* `Graph.madeNames` — the names that no caller gave
* `Graph.Numbered` — every node knows its place
* `Graph.Grown` — graphs made by calls, and by changes that leave the nodes at their places

## Main Statements

* `Graph.names_statement` — the names of a statement, node by node in the order of the walk
* `Graph.nodup_names_iff` — when they are distinct
* `Graph.Grown.nodup_unnamedPositions` — in a graph that has been grown, nodes without an alias
  differ in their places
* `Graph.Grown.nodup_names_iff` — when the names of such a graph are distinct
* `Graph.compile_names_nodup_iff` — the names in what a graph compiles to
* `Graph.exists_compile_names_not_nodup` — a name that is declared twice
-/

namespace ObjectQuery.Query

open ObjectQuery.Sql ObjectQuery.Outcome

/-! ### Names made from names -/

/-- A number is read back from its digits. -/
theorem natRepr_inj {a b : Nat} (h : a.repr = b.repr) : a = b := by
  have hdigits : Nat.toDigits 10 a = Nat.toDigits 10 b := by
    rw [← Nat.toList_repr, ← Nat.toList_repr, h]
  calc a = Nat.ofDigitChars 10 (Nat.toDigits 10 a) 0 := Nat.ofDigitChars_ten_toDigits.symm
    _ = Nat.ofDigitChars 10 (Nat.toDigits 10 b) 0 := by rw [hdigits]
    _ = b := Nat.ofDigitChars_ten_toDigits

theorem repositoryAlias_inj {a b : String} : repositoryAlias a = repositoryAlias b ↔ a = b :=
  String.append_right_inj "r"

theorem LinkTable.aliasTo_inj {a b : String} : aliasTo a = aliasTo b ↔ a = b :=
  String.append_right_inj "lnk"

/-- The two kinds of names made from aliases begin differently. -/
theorem repositoryAlias_ne_aliasTo (a b : String) : repositoryAlias a ≠ LinkTable.aliasTo b := by
  intro h
  have hchars := congrArg String.toList h
  simp [repositoryAlias, LinkTable.aliasTo] at hchars

/-- A name is made from an alias for a table behind it. -/
def MadeFrom (aliasName name : String) : Prop :=
  name = LinkTable.aliasTo aliasName ∨ name = repositoryAlias aliasName

namespace MadeFrom

variable {a b name : String}

/-- A name is made from one alias only. -/
theorem unique (ha : MadeFrom a name) (hb : MadeFrom b name) : a = b := by
  rcases ha with rfl | rfl
  · rcases hb with hb | hb
    · exact LinkTable.aliasTo_inj.mp hb
    · exact absurd hb.symm (repositoryAlias_ne_aliasTo b a)
  · rcases hb with hb | hb
    · exact absurd hb (repositoryAlias_ne_aliasTo a b)
    · exact repositoryAlias_inj.mp hb

/-- No alias is made from itself. -/
theorem ne (h : MadeFrom a name) : name ≠ a := by
  intro heq
  have hlength : name.length = a.length := congrArg String.length heq
  rcases h with rfl | rfl
  · have : (LinkTable.aliasTo a).length = 3 + a.length := String.length_append _ _
    omega
  · have : (repositoryAlias a).length = 1 + a.length := String.length_append _ _
    omega

end MadeFrom

namespace NodeSettings

/-- The place that names a node; none for a node with a given alias. -/
def unnamedPosition? (n : NodeSettings) : Option Nat :=
  if n.givenAlias.isNone then some n.position else none

theorem unnamedPosition?_eq_some_iff {n : NodeSettings} {position : Nat} :
    n.unnamedPosition? = some position ↔ n.givenAlias = none ∧ n.position = position := by
  unfold unnamedPosition?
  cases n.givenAlias <;> simp

/-- An alias is given, or made from the place of the node. -/
theorem aliasName_cases (n : NodeSettings) :
    n.givenAlias = some n.aliasName ∨
      n.givenAlias = none ∧ n.aliasName = "t" ++ toString n.position := by
  unfold aliasName
  cases n.givenAlias with
  | none => exact Or.inr ⟨rfl, rfl⟩
  | some given => exact Or.inl rfl

theorem aliasName_of_given {n : NodeSettings} {given : String} (h : n.givenAlias = some given) :
    n.aliasName = given := by
  rw [aliasName, h, Option.getD_some]

/-- The alias made from the place of a node is not made from an alias. -/
theorem not_madeFrom_of_unnamed {n : NodeSettings} (h : n.givenAlias = none) (a : String) :
    ¬ MadeFrom a n.aliasName := by
  rintro (hmade | hmade)
  all_goals
    have hchars := congrArg String.toList hmade
    simp [aliasName, h, repositoryAlias, LinkTable.aliasTo] at hchars

end NodeSettings

/-! ### The names of a statement -/

/-- The names that the table reference of a node declares. -/
theorem NodeSettings.names_tableRef {n : NodeSettings} {source : Source}
    (h : n.requireSource = .ok source) (aliasName : String) (physical : Bool) :
    (source.tableRef aliasName physical).names =
      (if physical && n.table?.isSome then [repositoryAlias aliasName] else []) ++ [aliasName] := by
  rw [table?, requireSource_eq_ok_iff.mp h]
  cases source with
  | table t => cases physical <;> rfl
  | subQuery q => cases physical <;> rfl

namespace Graph

variable (g : Graph) (mode : Mode)

/-- Whether the join of a node to its partner goes through the link table. -/
def joinedByRow (id : Nat) : Bool :=
  match g.partner? id with
  | none => false
  | some partner =>
    ((g.node? (g.direction.linkHolder id partner)).bind (·.link)).any (·.usesLinkTable)

/-- The names made from the alias of a node: those of its link row and its repository table,
unless they are inside a derived table. -/
def prefixedNames (id : Nat) (n : NodeSettings) : List String :=
  if g.isolated id n then []
  else
    (if g.joinedByRow id then [LinkTable.aliasTo n.aliasName] else []) ++
      (if mode.physical && n.table?.isSome then [repositoryAlias n.aliasName] else [])

/-- The names that a statement declares for a node. -/
def namesOf (id : Nat) : List String :=
  (g.node? id).elim [] fun n => g.prefixedNames mode id n.toNodeSettings ++ [n.aliasName]

variable {g mode} {id : Nat}

theorem mem_namesOf {name : String} :
    name ∈ g.namesOf mode id ↔ ∃ n, g.node? id = some n ∧
      (name ∈ g.prefixedNames mode id n.toNodeSettings ∨ name = n.aliasName) := by
  unfold namesOf
  cases g.node? id <;> simp

theorem namesOf_eq {n : Node} (h : g.node? id = some n) :
    g.namesOf mode id = g.prefixedNames mode id n.toNodeSettings ++ [n.aliasName] := by
  rw [namesOf, h, Option.elim_some]

namespace Visits

variable {v : Visit}

/-- The join of a node declares the name of a link row if it goes through the link table. -/
theorem rowNames_eq (hv : g.Visits mode id v) {j : PlannedJoin} (hj : v.join = some j) :
    j.rowNames = if g.joinedByRow id then [LinkTable.aliasTo v.node.aliasName] else [] := by
  have hjoin := hv.join
  rw [hj] at hjoin
  obtain ⟨partner, hp⟩ := Option.isSome_iff_exists.mp ((planJoin_isSome_iff hjoin).mp rfl)
  obtain ⟨previous, holder, link, plan, row, -, hholder, hlink, hplan, hrow, hsome⟩ :=
    (planJoin_eq_ok_iff hp).mp hjoin
  cases hsome
  have hjoined : g.joinedByRow id = link.usesLinkTable := by
    rw [joinedByRow, hp]
    dsimp only
    rw [node_eq_ok_iff.mp hholder, Option.bind_some, hlink, Option.any_some]
  rw [hjoined, PlannedJoin.rowNames]
  cases huses : link.usesLinkTable with
  | true =>
    obtain ⟨linkType, near, rfl⟩ := (Link.exists_linkTable_iff hplan).mpr huses
    obtain ⟨_, -, rfl⟩ := linkRow_linkTable_eq_ok_iff.mp hrow
    rfl
  | false =>
    have hnone : row = none := by
      refine Option.not_isSome_iff_eq_none.mp fun hsome => ?_
      have huses' := (Link.exists_linkTable_iff hplan).mp ((linkRow_isSome_iff hrow).mp hsome)
      rw [huses] at huses'
      cases huses'
    rw [hnone]
    rfl

/-- The first node declares its names with the table that the statement begins with. -/
theorem names_root (hv : g.Visits mode 0 v) :
    (v.source.tableRef v.node.aliasName mode.physical).names = g.namesOf mode 0 := by
  have hjoined : g.joinedByRow 0 = false := by rw [joinedByRow, partner?_zero]
  have hinline : g.isolated 0 v.node.toNodeSettings = false := by
    rw [isolated, partner?_zero]
    simp
  rw [namesOf_eq hv.node, prefixedNames, hinline, hjoined,
    NodeSettings.names_tableRef hv.source]
  rfl

/-- Every other node declares its names with its joins. -/
theorem joinNames_joins (hv : g.Visits mode id v) {partner : Nat}
    (hp : g.partner? id = some partner) :
    joinNames (v.joins g mode id) = g.namesOf mode id := by
  obtain ⟨j, hj⟩ := Option.isSome_iff_exists.mp
    ((planJoin_isSome_iff hv.join).mpr (by rw [hp]; rfl))
  rw [namesOf_eq hv.node, prefixedNames]
  cases hisolated : g.isolated id v.node.toNodeSettings with
  | true =>
    rw [Visit.joins_of_isolated hj hisolated, joinNames, List.flatMap_singleton,
      names_derivedJoin, NodeSettings.aliasName_scope]
    rfl
  | false =>
    rw [Visit.joins_of_inline hj hisolated, joinNames_inlineJoins, NodeSettings.aliasName_scope,
      NodeSettings.names_tableRef hv.source, hv.rowNames_eq hj, ← List.append_assoc]
    rfl

end Visits

/-- A statement declares the names of its nodes, in the order of the walk. -/
theorem names_statement {q : Statement} (h : g.statement mode = .ok q) :
    q.names = g.walk.flatMap (g.namesOf mode) := by
  obtain ⟨root, source, parts, hroot, hsource, hparts, rfl⟩ := statement_eq_ok_iff.mp h
  obtain ⟨rest, hwalk, hrest⟩ := walk_eq_cons (exists_node?_iff.mp ⟨root, hroot⟩)
  rw [hwalk] at hparts ⊢
  obtain ⟨first, others, hfirst, hothers, rfl⟩ :=
    List.forall₂_cons_left_iff.mp (mapM_eq_ok_iff.mp hparts)
  obtain ⟨v, hv, rfl⟩ := part_eq_ok_iff.mp hfirst
  cases hv.node.symm.trans hroot
  cases hv.source.symm.trans hsource
  have hnone : v.join = none :=
    Except.ok.inj (hv.join.symm.trans (planJoin_of_none partner?_zero _))
  have hjoins : others.flatMap (fun p => joinNames p.joins) = rest.flatMap (g.namesOf mode) := by
    refine flatMap_of_forall₂ hothers fun id hid p hp => ?_
    obtain ⟨w, hw, rfl⟩ := part_eq_ok_iff.mp hp
    obtain ⟨partner, hpartner⟩ := hrest id hid
    exact hw.joinNames_joins hpartner
  show (v.source.tableRef v.node.aliasName mode.physical).names ++
      joinNames ((v.part g mode 0 :: others).flatMap (·.joins)) = _
  have hfirstJoins : (v.part g mode 0).joins = [] := Visit.joins_of_none hnone
  rw [List.flatMap_cons, hfirstJoins, List.nil_append, joinNames, List.flatMap_assoc,
    List.flatMap_cons, hv.names_root]
  exact congrArg (g.namesOf mode 0 ++ ·) hjoins

/-! ### Where the names of the nodes come from -/

variable (g mode)

/-- What the nodes of a graph have of a kind, in the order in which they were added. -/
def collect {β : Type} (f : NodeSettings → Option β) : List β :=
  g.slots.filterMap fun s => f s.node.toNodeSettings

/-- The aliases that were given to nodes. -/
def givenAliases : List String := g.collect (·.givenAlias)

/-- The places of the nodes without a given alias. -/
def unnamedPositions : List Nat := g.collect (·.unnamedPosition?)

/-- The names that a statement declares and nobody gave: those made from aliases, and the aliases
made from places. -/
def madeNames : List String :=
  g.walk.flatMap fun id => (g.node? id).elim [] fun n =>
    g.prefixedNames mode id n.toNodeSettings ++
      if n.givenAlias.isNone then [n.aliasName] else []

variable {g mode}

theorem mem_collect {β : Type} {f : NodeSettings → Option β} {b : β} :
    b ∈ g.collect f ↔ ∃ id n, g.node? id = some n ∧ f n.toNodeSettings = some b := by
  unfold collect
  rw [List.mem_filterMap]
  constructor
  · rintro ⟨s, hs, hb⟩
    obtain ⟨id, hid⟩ := List.mem_iff_getElem?.mp hs
    exact ⟨id, s.node, by rw [node?, hid, Option.map_some], hb⟩
  · rintro ⟨id, n, hn, hb⟩
    obtain ⟨s, hs, rfl⟩ := Option.map_eq_some_iff.mp hn
    exact ⟨s, List.mem_of_getElem? hs, hb⟩

/-- What is collected is distinct exactly when no two nodes have the same. -/
theorem nodup_collect_iff {β : Type} {f : NodeSettings → Option β} :
    (g.collect f).Nodup ↔ ∀ i j n m b, g.node? i = some n → g.node? j = some m →
      f n.toNodeSettings = some b → f m.toNodeSettings = some b → i = j := by
  unfold collect List.Nodup
  rw [List.pairwise_filterMap, List.pairwise_iff_getElem]
  constructor
  · intro h i j n m b hn hm hnb hmb
    obtain ⟨s, hs, rfl⟩ := Option.map_eq_some_iff.mp hn
    obtain ⟨t, ht, rfl⟩ := Option.map_eq_some_iff.mp hm
    obtain ⟨hi, rfl⟩ := List.getElem?_eq_some_iff.mp hs
    obtain ⟨hj, rfl⟩ := List.getElem?_eq_some_iff.mp ht
    rcases Nat.lt_trichotomy i j with hlt | heq | hgt
    · exact absurd rfl (h i j hi hj hlt b hnb b hmb)
    · exact heq
    · exact absurd rfl (h j i hj hi hgt b hmb b hnb)
  · intro h i j hi hj hlt b hb c hc
    rintro rfl
    have hn : g.node? i = some g.slots[i].node := by rw [node?, List.getElem?_eq_getElem hi]; rfl
    have hm : g.node? j = some g.slots[j].node := by rw [node?, List.getElem?_eq_getElem hj]; rfl
    exact absurd (h i j _ _ b hn hm hb hc) (Nat.ne_of_lt hlt)

theorem mem_madeNames {name : String} :
    name ∈ g.madeNames mode ↔ ∃ id n, g.node? id = some n ∧
      (name ∈ g.prefixedNames mode id n.toNodeSettings ∨
        n.givenAlias = none ∧ name = n.aliasName) := by
  unfold madeNames
  rw [List.mem_flatMap]
  constructor
  · rintro ⟨id, hid, hname⟩
    obtain ⟨n, hn⟩ := exists_node?_iff.mpr (mem_walk.mp hid)
    rw [hn, Option.elim_some, List.mem_append] at hname
    refine ⟨id, n, hn, hname.imp_right fun hown => ?_⟩
    cases hgiven : n.givenAlias with
    | none => exact ⟨rfl, by simpa [hgiven] using hown⟩
    | some given => simp [hgiven] at hown
  · rintro ⟨id, n, hn, hname⟩
    refine ⟨id, mem_walk.mpr (exists_node?_iff.mp ⟨n, hn⟩), ?_⟩
    rw [hn, Option.elim_some, List.mem_append]
    refine hname.imp_right ?_
    rintro ⟨hgiven, rfl⟩
    simp [hgiven]

/-- The names beside the alias of a node are made from it. -/
theorem madeFrom_of_mem_prefixedNames {n : NodeSettings} {name : String}
    (h : name ∈ g.prefixedNames mode id n) : MadeFrom n.aliasName name := by
  unfold prefixedNames at h
  split at h
  · exact absurd h List.not_mem_nil
  · rcases List.mem_append.mp h with hrow | htable
    · split at hrow
      · exact Or.inl (List.mem_singleton.mp hrow)
      · exact absurd hrow List.not_mem_nil
    · split at htable
      · exact Or.inr (List.mem_singleton.mp htable)
      · exact absurd htable List.not_mem_nil

/-! ### Distinct names -/

/-- The names of one node are distinct. -/
theorem nodup_namesOf (mode : Mode) (id : Nat) : (g.namesOf mode id).Nodup := by
  cases hn : g.node? id with
  | none =>
    rw [namesOf, hn]
    exact List.nodup_nil
  | some n =>
    have hprefixed : (g.prefixedNames mode id n.toNodeSettings).Nodup := by
      unfold prefixedNames
      have hne := repositoryAlias_ne_aliasTo n.aliasName n.aliasName
      split
      · exact List.nodup_nil
      · split <;> split <;> simp [hne.symm]
    rw [namesOf_eq hn]
    refine List.nodup_append.mpr ⟨hprefixed, List.nodup_singleton _, fun name hname a ha => ?_⟩
    rw [List.mem_singleton.mp ha]
    exact (madeFrom_of_mem_prefixedNames hname).ne

/-- The names of a statement are distinct exactly when no two nodes share one. -/
theorem nodup_flatMap_namesOf_iff :
    (g.walk.flatMap (g.namesOf mode)).Nodup ↔
      ∀ i j name, name ∈ g.namesOf mode i → name ∈ g.namesOf mode j → i = j := by
  have hwalked : ∀ id name, name ∈ g.namesOf mode id → id ∈ g.walk := by
    intro id name hname
    obtain ⟨n, hn, -⟩ := mem_namesOf.mp hname
    exact mem_walk.mpr (exists_node?_iff.mp ⟨n, hn⟩)
  rw [List.nodup_flatMap]
  constructor
  · rintro ⟨-, hpairwise⟩ i j name hi hj
    by_contra hne
    have : Std.Symm (Function.onFun List.Disjoint (g.namesOf mode)) :=
      ⟨fun _ _ h => List.disjoint_symm h⟩
    exact hpairwise.forall (hwalked i name hi) (hwalked j name hj) hne hi hj
  · intro h
    refine ⟨fun id _ => nodup_namesOf mode id, ?_⟩
    refine nodup_walk.pairwise_of_forall_ne fun i _ j _ hne name hi hj => ?_
    exact hne (h i j name hi hj)

/-- The aliases of a graph are kept apart from each other and from the names that are made. -/
structure NamesApart (g : Graph) (mode : Mode) : Prop where
  given : g.givenAliases.Nodup
  unnamed : g.unnamedPositions.Nodup
  made : ∀ given ∈ g.givenAliases, given ∉ g.madeNames mode

namespace NamesApart

variable {i j : Nat} {n m : Node}

/-- No alias is a name made from an alias: a given one by assumption, one made from a place by
its first letter. -/
theorem not_mem_prefixedNames (h : g.NamesApart mode) (hn : g.node? i = some n)
    (hm : g.node? j = some m) : n.aliasName ∉ g.prefixedNames mode j m.toNodeSettings := by
  intro hmem
  rcases n.aliasName_cases with hgiven | ⟨hnone, -⟩
  · exact h.made _ (mem_collect.mpr ⟨i, n, hn, hgiven⟩)
      (mem_madeNames.mpr ⟨j, m, hm, Or.inl hmem⟩)
  · exact NodeSettings.not_madeFrom_of_unnamed hnone _ (madeFrom_of_mem_prefixedNames hmem)

/-- No two nodes have the same alias. -/
theorem eq_of_aliasName_eq (h : g.NamesApart mode) (hn : g.node? i = some n)
    (hm : g.node? j = some m) (heq : n.aliasName = m.aliasName) : i = j := by
  rcases n.aliasName_cases with hgiven | ⟨hnone, hplace⟩
  · rcases m.aliasName_cases with hgiven' | ⟨hnone', -⟩
    · exact nodup_collect_iff.mp h.given i j n m _ hn hm hgiven (heq ▸ hgiven')
    · exact absurd (mem_madeNames.mpr ⟨j, m, hm, Or.inr ⟨hnone', heq⟩⟩)
        (h.made _ (mem_collect.mpr ⟨i, n, hn, hgiven⟩))
  · rcases m.aliasName_cases with hgiven' | ⟨hnone', hplace'⟩
    · exact absurd (mem_madeNames.mpr ⟨i, n, hn, Or.inr ⟨hnone, heq.symm⟩⟩)
        (h.made _ (mem_collect.mpr ⟨j, m, hm, hgiven'⟩))
    · rw [hplace, hplace'] at heq
      have hposition : n.position = m.position :=
        natRepr_inj ((String.append_right_inj "t").mp heq)
      exact nodup_collect_iff.mp h.unnamed i j n m n.position hn hm
        (NodeSettings.unnamedPosition?_eq_some_iff.mpr ⟨hnone, rfl⟩)
        (NodeSettings.unnamedPosition?_eq_some_iff.mpr ⟨hnone', hposition.symm⟩)

/-- No two nodes share a name. -/
theorem eq_of_mem_namesOf (h : g.NamesApart mode) {name : String}
    (hi : name ∈ g.namesOf mode i) (hj : name ∈ g.namesOf mode j) : i = j := by
  obtain ⟨n, hn, hname⟩ := mem_namesOf.mp hi
  obtain ⟨m, hm, hname'⟩ := mem_namesOf.mp hj
  rcases hname with hprefixed | rfl
  · rcases hname' with hprefixed' | rfl
    · exact h.eq_of_aliasName_eq hn hm ((madeFrom_of_mem_prefixedNames hprefixed).unique
        (madeFrom_of_mem_prefixedNames hprefixed'))
    · exact absurd hprefixed (h.not_mem_prefixedNames hm hn)
  · rcases hname' with hprefixed' | heq
    · exact absurd hprefixed' (h.not_mem_prefixedNames hn hm)
    · exact h.eq_of_aliasName_eq hn hm heq

/-- Aliases are kept apart if no two nodes share a name. -/
theorem of_namesOf (h : ∀ i j name, name ∈ g.namesOf mode i → name ∈ g.namesOf mode j → i = j) :
    g.NamesApart mode where
  given := by
    refine nodup_collect_iff.mpr fun i j n m given hn hm hgiven hgiven' => ?_
    exact h i j given (mem_namesOf.mpr ⟨n, hn, Or.inr (n.aliasName_of_given hgiven).symm⟩)
      (mem_namesOf.mpr ⟨m, hm, Or.inr (m.aliasName_of_given hgiven').symm⟩)
  unnamed := by
    refine nodup_collect_iff.mpr fun i j n m position hn hm hp hp' => ?_
    obtain ⟨hnone, hplace⟩ := NodeSettings.unnamedPosition?_eq_some_iff.mp hp
    obtain ⟨hnone', hplace'⟩ := NodeSettings.unnamedPosition?_eq_some_iff.mp hp'
    have hsame : n.aliasName = m.aliasName := by
      rw [NodeSettings.aliasName, NodeSettings.aliasName, hnone, hnone', hplace, hplace']
    exact h i j n.aliasName (mem_namesOf.mpr ⟨n, hn, Or.inr rfl⟩)
      (mem_namesOf.mpr ⟨m, hm, Or.inr hsame⟩)
  made := by
    intro given hgiven hmade
    obtain ⟨i, n, hn, hown⟩ := mem_collect.mp hgiven
    obtain ⟨j, m, hm, hname⟩ := mem_madeNames.mp hmade
    have halias := n.aliasName_of_given hown
    obtain rfl := h i j given (mem_namesOf.mpr ⟨n, hn, Or.inr halias.symm⟩)
      (mem_namesOf.mpr ⟨m, hm, hname.imp_right And.right⟩)
    cases hn.symm.trans hm
    -- Both names would be of one node, and its names are distinct.
    rcases hname with hprefixed | ⟨hnone, -⟩
    · exact (madeFrom_of_mem_prefixedNames hprefixed).ne halias.symm
    · rw [hown] at hnone
      cases hnone

end NamesApart

/-- The names of a statement are distinct exactly when the aliases of the graph are kept apart
from each other and from the names that are made. -/
theorem nodup_names_iff {q : Statement} (h : g.statement mode = .ok q) :
    q.names.Nodup ↔ g.NamesApart mode := by
  rw [names_statement h, nodup_flatMap_namesOf_iff]
  constructor
  · exact NamesApart.of_namesOf
  · exact fun h i j name hi hj => h.eq_of_mem_namesOf hi hj

/-! ### Places -/

/-- Every node knows its place. -/
def Numbered (g : Graph) : Prop := ∀ id n, g.node? id = some n → n.position = id

/-- Nodes that know their places differ in them. -/
theorem Numbered.nodup_unnamedPositions (h : g.Numbered) : g.unnamedPositions.Nodup := by
  refine nodup_collect_iff.mpr fun i j n m position hn hm hp hp' => ?_
  obtain ⟨-, hplace⟩ := NodeSettings.unnamedPosition?_eq_some_iff.mp hp
  obtain ⟨-, hplace'⟩ := NodeSettings.unnamedPosition?_eq_some_iff.mp hp'
  rw [← h i n hn, ← h j m hm, hplace, hplace']

/-- A new node is told its place. -/
theorem Numbered.push (h : g.Numbered) {n : Node} {partner : Option Nat}
    (hadmits : g.direction.Admits g.size partner) : (g.push n partner hadmits).Numbered := by
  intro id m hm
  obtain ⟨s, hs, rfl⟩ := Option.map_eq_some_iff.mp hm
  have hslots : (g.slots ++ [⟨{ n with position := g.size }, partner⟩])[id]? = some s := hs
  rcases Nat.lt_trichotomy id g.slots.length with hlt | rfl | hgt
  · rw [List.getElem?_append_left hlt] at hslots
    exact h id s.node (by rw [node?, hslots, Option.map_some])
  · rw [List.getElem?_concat_length] at hslots
    cases hslots
    rfl
  · rw [List.getElem?_eq_none (by rw [List.length_append]; exact hgt)] at hslots
    cases hslots

/-- A call keeps the places of the nodes. -/
theorem Numbered.answer (h : g.Numbered) (call : Call) : (g.answer call).1.Numbered := by
  cases call with
  | item n =>
    show (g.answered (g.addItem n)).1.Numbered
    cases hd : g.direction with
    | forward =>
      rw [addItem_of_forward hd]
      exact h.push (admits_lastId? hd)
    | reverse =>
      rw [addItem_of_reverse hd]
      exact h
  | child parent n =>
    show (g.answered (g.addChild parent n)).1.Numbered
    cases hd : g.direction with
    | forward =>
      rw [addChild_of_forward hd]
      exact h
    | reverse =>
      rcases Nat.lt_or_ge parent g.size with hlt | hge
      · rw [addChild_of_lt hd hlt]
        exact h.push (admits_of_lt hd hlt)
      · rw [addChild_of_le hd hge]
        exact h

/-- A change to a node that is not told another place keeps the places of the nodes. -/
theorem Numbered.modifyNode (h : g.Numbered) {id : Nat} {f : Node → Node}
    (hf : ∀ n, (f n).position = n.position) {g' : Graph} (hg : g.modifyNode id f = .ok g') :
    g'.Numbered := by
  intro k m hm
  unfold Graph.modifyNode at hg
  split at hg
  · cases hg
    obtain ⟨s, hs, rfl⟩ := Option.map_eq_some_iff.mp hm
    rw [List.getElem?_modify] at hs
    obtain ⟨slot, hslot, rfl⟩ := Option.map_eq_some_iff.mp hs
    have hplace : slot.node.position = k := h k slot.node (by rw [node?, hslot, Option.map_some])
    show (if id = k then _ else slot).node.position = k
    split
    · exact (hf slot.node).trans hplace
    · exact hplace
  · cases hg

theorem numbered_start (environment : Environment) (root : Option Node) :
    (start environment root).Numbered := by
  have hempty : ∀ direction (admitted : ∀ id s, ([] : List Slot)[id]? = some s →
      Direction.Admits direction id s.partner),
      Numbered { environment, direction, admitted } := by
    intro direction admitted id n hn
    simp [node?] at hn
  cases root with
  | none => exact hempty .forward _
  | some root => exact (hempty .reverse _).push (Direction.admits_first .reverse)

/-- Graphs that have been grown: by calls from a new graph, by changes to nodes that leave them at
their places, and by settings of the graph, which leave the nodes as they are. -/
inductive Grown : Graph → Prop
  | start (environment : Environment) (root : Option Node) : Grown (start environment root)
  | answer {g : Graph} (h : Grown g) (call : Call) : Grown (g.answer call).1
  | modify {g g' : Graph} (h : Grown g) {id : Nat} {f : Node → Node}
    (hf : ∀ n, (f n).position = n.position) (hg : g.modifyNode id f = .ok g') : Grown g'
  | settle {g g' : Graph} (h : Grown g) (hslots : g'.slots = g.slots) : Grown g'

namespace Grown

/-- Any run of calls grows a graph. -/
theorem afterCalls (h : g.Grown) (calls : List Call) : (g.afterCalls calls).Grown := by
  induction calls generalizing g with
  | nil => exact h
  | cons call calls ih => exact ih (h.answer call)

/-- In a graph that has been grown every node knows its place. -/
theorem numbered (h : g.Grown) : g.Numbered := by
  induction h with
  | start environment root => exact numbered_start environment root
  | answer _ call ih => exact ih.answer call
  | modify _ hf hg ih => exact ih.modifyNode hf hg
  | settle _ hslots ih =>
    intro id n hn
    exact ih id n (by rwa [node?, hslots] at hn)

/-- So the nodes without an alias differ in their places. -/
theorem nodup_unnamedPositions (h : g.Grown) : g.unnamedPositions.Nodup :=
  h.numbered.nodup_unnamedPositions

/-- In a graph that has been grown the names are distinct exactly when the given aliases differ,
and from the names that are made. -/
theorem nodup_names_iff (h : g.Grown) {q : Statement} (hq : g.statement mode = .ok q) :
    q.names.Nodup ↔
      g.givenAliases.Nodup ∧ ∀ given ∈ g.givenAliases, given ∉ g.madeNames mode := by
  rw [Graph.nodup_names_iff hq]
  constructor
  · exact fun hapart => ⟨hapart.given, hapart.made⟩
  · exact fun ⟨hgiven, hmade⟩ => ⟨hgiven, h.nodup_unnamedPositions, hmade⟩

end Grown

/-! ### Compiled graphs -/

/-- What a graph compiles to declares, node by node, the alias of the node behind the names made
from it.  The names are distinct exactly when the given aliases are kept apart from each other
and from the names that are made, and nodes without one have places of their own. -/
theorem compile_names_nodup_iff {f : Fragment} (h : g.compile mode = .ok f) :
    ∃ words q, vocabulary g.environment.dialect = .ok words ∧ g.statement mode = .ok q ∧
      f = q.render ⟨words, g.environment.geometry⟩ ∧
      q.names = g.walk.flatMap (g.namesOf mode) ∧ (q.names.Nodup ↔ g.NamesApart mode) := by
  obtain ⟨-, words, q, hwords, hq, hf⟩ := compile_eq_ok_iff.mp h
  exact ⟨words, q, hwords, hq, hf, names_statement hq, nodup_names_iff hq⟩

end Graph

namespace Farm

/-- The tree with texts has been grown. -/
theorem grown_texted : texted.Grown := by
  have hstart : (Graph.start .standard (some someAnimal)).Grown := .start _ _
  have hcalls := hstart.afterCalls [.child 0 stall,
    .child 0 { score with link := some (.freeText "t2.object_id = rt0.object_id") },
    .child 0 { source := some (.table stalls), link := some (.linkRow .second (some 6)) }]
  exact hcalls.settle rfl

/-- Two animals, the first under the alias that the place of the second makes. -/
def namesakes : Graph :=
  (Graph.start .standard none).afterCalls
    [.item { source := some (.table animals), givenAlias := some "t1", link := some .child },
      .item { source := some (.table animals) }]

end Farm

namespace Graph

/-- The tree with texts declares these names, and each of them once. -/
theorem compile_names_nodup_iff_farm :
    ∃ f q, Farm.texted.compile Farm.sideBySide = .ok f ∧
      Farm.texted.statement Farm.sideBySide = .ok q ∧
      q.names = ["rt0", "t0", "t1", "t2", "lnkt3", "rt3", "t3"] ∧
      Farm.texted.NamesApart Farm.sideBySide ∧ q.names.Nodup := by
  obtain ⟨f, hf⟩ : ∃ f, Farm.texted.compile Farm.sideBySide = .ok f := ⟨_, rfl⟩
  obtain ⟨_, q, -, hq, -, hnames, hnodup⟩ := compile_names_nodup_iff hf
  have hapart : Farm.texted.NamesApart Farm.sideBySide :=
    ⟨List.nodup_nil, Farm.grown_texted.nodup_unnamedPositions, List.forall_mem_nil _⟩
  refine ⟨f, q, hf, hq, ?_, hapart, hnodup.mpr hapart⟩
  rw [hnames]
  rfl

/-- A graph grown by two calls, with a single given alias, declares that alias twice. -/
theorem exists_compile_names_not_nodup : Farm.namesakes.givenAliases.Nodup ∧
    ∃ f words q, Farm.namesakes.compile {} = .ok f ∧ Farm.namesakes.statement {} = .ok q ∧
      f = q.render ⟨words, Farm.namesakes.environment.geometry⟩ ∧ ¬ q.names.Nodup := by
  refine ⟨by decide, ?_⟩
  obtain ⟨f, hf⟩ : ∃ f, Farm.namesakes.compile {} = .ok f := ⟨_, rfl⟩
  obtain ⟨-, words, q, -, hq, hrender⟩ := compile_eq_ok_iff.mp hf
  refine ⟨f, words, q, hf, hq, hrender, fun hnodup => ?_⟩
  have hgrown : Farm.namesakes.Grown := Grown.afterCalls (.start _ _) _
  have hmade : "t1" ∈ Farm.namesakes.madeNames {} := by decide
  exact ((hgrown.nodup_names_iff hq).mp hnodup).2 "t1" (by decide) hmade

end Graph

end ObjectQuery.Query
