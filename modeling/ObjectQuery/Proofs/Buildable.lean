import ObjectQuery.Proofs.Building
import ObjectQuery.Proofs.Configurations
import ObjectQuery.Proofs.Faults
import ObjectQuery.Proofs.InPlace

/-!
# What building guarantees to compile

A graph that is built from a definition compiles, unless the definition leaves out a link or a
link type, or needs a link table that is not configured.  The error of a compilation tells
which of these it is; all other errors are ruled out by the configuration and by building.

## Main Definitions

* `QueryDefinition.MissesLink`, `QueryDefinition.OpensLinkType`,
  `QueryDefinition.JoinsByLinkRow`, `QueryDefinition.FiltersByLinkRow` — what can go wrong
* `QueryDefinition.Explains` — the errors that are left, with their reasons

## Main Statements

* `Config.isSome_lookup_environment` — no word is missing
* `Assembled.exists_joined`, `Assembled.exists_holder` — the nodes that keep the links of joins
* `Assembled.explains` — the error of a compilation
* `Assembled.settled_of_compilable`, `Assembled.compilable_of_settled` — its success
* `QueryDefinition.compile_build` — what building guarantees
-/

namespace ObjectQuery

open ObjectQuery.Number ObjectQuery.Sql ObjectQuery.Query ObjectQuery.Outcome

/-! ### Configurations -/

namespace Config

/-- The configured words stand in front of those of standard SQL, so no word is missing. -/
theorem isSome_lookup_environment {c : Config} {e : Environment} (h : c.environment = .ok e)
    (k : Keyword) : (e.dialect.lookup? k.key).isSome = true := by
  obtain ⟨valid, -, h⟩ := bind_eq_ok_iff.mp h
  obtain ⟨date, -, h⟩ := bind_eq_ok_iff.mp h
  cases h
  have hstandard := Dialect.lookup_standard k
  show ((valid.keywords ++ Dialect.standard.entries).lookup k.key).isSome = true
  rw [List.lookup_append, Option.isSome_or, Bool.or_eq_true]
  exact Or.inr (by rw [← Dialect.lookup?, hstandard]; rfl)

end Config

namespace Definition

/-! ### What definitions leave open -/

namespace QueryDefinition

variable (q : QueryDefinition)

/-- A node that is joined by its link has none. -/
def MissesLink : Prop := ∃ d ∈ q.joined, d.link = none

/-- A node is joined by a link whose link type is given neither by name nor by identifier. -/
def OpensLinkType : Prop := ∃ d ∈ q.joined, ∃ link, d.link = some link ∧ link.isOpen = true

/-- A node is joined by a link that goes through the link table. -/
def JoinsByLinkRow : Prop :=
  ∃ d ∈ q.joined, ∃ link, d.link = some link ∧ link.usesLinkTable = true

/-- A criterion goes through the link table, at any depth. -/
def FiltersByLinkRow : Prop := ∃ d ∈ q.all, d.usesLinkTable = true

/-- The errors that a built graph can have, each with its reason in the definition and the
configuration. -/
def Explains (config : Config) : CompileError → Prop
  | .joinConfiguration (.noLink _ _) => q.MissesLink
  | .unresolvedLink (.noLinkType _) => q.OpensLinkType
  | .unresolvedLink (.noTableForJoin _ _) => config.linkTable = none ∧ q.JoinsByLinkRow
  | .unresolvedLink (.noTableForFilter _) => config.linkTable = none ∧ q.FiltersByLinkRow
  | _ => False

end QueryDefinition

namespace Assembled

variable {q : QueryDefinition} {config : Config} {e : Environment} {g : Graph}

/-! ### Holders of links -/

/-- The node that keeps the link of a join is built from a definition whose link joins it. -/
theorem exists_joined (h : Assembled q config e g) {id partner : Nat} {holder : Node}
    (hp : g.partner? id = some partner)
    (hholder : g.node? (g.direction.linkHolder id partner) = some holder) :
    ∃ d ∈ q.joined, LinkPlaced d.link holder.link := by
  obtain ⟨d, hd, hplaces⟩ := h.exists_places hholder
  have hkeeps : keepsLink g (g.direction.linkHolder id partner) = true := by
    obtain ⟨hlt, hsize⟩ := Graph.partner?_lt hp
    unfold keepsLink
    cases hdirection : g.direction with
    | forward =>
      obtain rfl := Graph.eq_succ_of_partner? hdirection hp
      exact decide_eq_true hsize
    | reverse => exact decide_eq_true (Nat.lt_of_le_of_lt (Nat.zero_le partner) hlt)
  rw [hkeeps] at hd
  exact ⟨d, QueryDefinition.mem_joined.mpr hd, hplaces.link hkeeps⟩

/-- Every definition whose link joins it gives a node that keeps the link of a join. -/
theorem exists_holder (h : Assembled q config e g) {d : NodeDefinition} (hd : d ∈ q.joined) :
    ∃ id partner holder, g.partner? id = some partner ∧
      g.node? (g.direction.linkHolder id partner) = some holder ∧
      LinkPlaced d.link holder.link := by
  obtain ⟨k, n, hn, hkeeps, hplaces⟩ := h.exists_node (QueryDefinition.mem_joined.mp hd)
  have hsize : k < g.size := Graph.exists_node?_iff.mp ⟨n, hn⟩
  have hlink := hplaces.link rfl
  cases hdirection : g.direction with
  | forward =>
    rw [keepsLink, hdirection] at hkeeps
    have hpartner := Graph.partner?_succ_of_forward hdirection (of_decide_eq_true hkeeps.symm)
    exact ⟨k + 1, k, n, hpartner, hn, hlink⟩
  | reverse =>
    rw [keepsLink, hdirection] at hkeeps
    obtain ⟨partner, hpartner⟩ := Graph.exists_partner? (of_decide_eq_true hkeeps.symm) hsize
    exact ⟨k, partner, n, hpartner, hn, hlink⟩

/-- The link of a join is that of a definition. -/
theorem exists_plans (h : Assembled q config e g) {link : Link} (hjoined : g.JoinedBy link) :
    ∃ d ∈ q.joined, ∃ l, d.link = some l ∧ l.Plans link := by
  obtain ⟨id, partner, holder, hp, hholder, hlink⟩ := hjoined
  obtain ⟨d, hd, hplaced⟩ := h.exists_joined hp hholder
  refine ⟨d, hd, ?_⟩
  rcases hplaced.eq_or with ⟨-, hnone⟩ | ⟨l, built, hl, hbuilt, hplans⟩
  · cases hlink.symm.trans hnone
  · cases hlink.symm.trans hbuilt
    exact ⟨l, hl, hplans⟩

/-! ### Errors and successes -/

/-- Only a link that the definition leaves out is wrong with a join: column lists have been
checked. -/
theorem explains_joinFault (h : Assembled q config e g) {fault : JoinFault}
    (hlacks : g.Lacks (.joinConfiguration fault)) :
    q.Explains config (.joinConfiguration fault) := by
  cases fault with
  | described message previous next => exact hlacks
  | unequalLists l r =>
    obtain ⟨left, right, hjoined, hlists⟩ := hlacks
    obtain ⟨d, -, l, -, hplans⟩ := h.exists_plans hjoined
    refine absurd (hplans.wellFormed.mpr ?_) hlists
    have huses := hplans.usesLinkTable
    cases l with
    | linkRow near name id => cases huses
    | _ => rfl
  | noLink previous next =>
    obtain ⟨id, partner, holder, hp, hholder, hnone⟩ := hlacks
    obtain ⟨d, hd, hplaced⟩ := h.exists_joined hp hholder
    rcases hplaced.eq_or with ⟨hdl, -⟩ | ⟨l, built, -, hbuilt, -⟩
    · exact ⟨d, hd, hdl⟩
    · cases hnone.symm.trans hbuilt

/-- Only an open link type or a missing link table is wrong with a link. -/
theorem explains_linkFault (h : Assembled q config e g) {fault : LinkFault}
    (hlacks : g.Lacks (.unresolvedLink fault)) : q.Explains config (.unresolvedLink fault) := by
  cases fault with
  | described message context => exact hlacks
  | noLinkType reversed =>
    obtain ⟨near, hjoined⟩ := hlacks
    obtain ⟨d, hd, l, hl, hplans⟩ := h.exists_plans hjoined
    refine ⟨d, hd, l, hl, ?_⟩
    rw [← Bool.not_eq_false, ← hplans.wellFormed]
    exact Bool.false_ne_true
  | noTableForJoin target previous =>
    obtain ⟨htable, near, linkType, hjoined⟩ := hlacks
    obtain ⟨d, hd, l, hl, hplans⟩ := h.exists_plans hjoined
    exact ⟨h.linkTable ▸ htable, d, hd, l, hl, hplans.usesLinkTable.symm⟩
  | noTableForFilter aliasName =>
    obtain ⟨htable, id, n, hn, hfilters⟩ := hlacks
    obtain ⟨d, hd, hplaces⟩ := h.exists_places hn
    exact ⟨h.linkTable ▸ htable, d, QueryDefinition.mem_all.mpr ⟨_, hd⟩,
      hplaces.checked.2.mp hfilters⟩

/-- Every node has a source, and so has every node inside its criterion. -/
theorem isSome_source (h : Assembled q config e g) {id : Nat} {n : Node}
    (hn : g.node? id = some n) : ∀ source ∈ n :: n.nestedNodes, source.source.isSome = true := by
  obtain ⟨d, -, hplaces⟩ := h.exists_places hn
  intro source hmem
  rcases List.mem_cons.mp hmem with rfl | hnested
  · exact hplaces.source
  · exact hplaces.checked.1 source hnested

/-- The error of a compilation has its reason in the definition or the configuration. -/
theorem explains (h : Assembled q config e g) (henv : config.environment = .ok e) {mode : Mode}
    {err : CompileError} (herror : g.compile mode = .error err) : q.Explains config err := by
  have hlacks := Graph.lacks_of_compile herror
  cases err with
  | missingKeyword key =>
    obtain ⟨k, rfl, hnone⟩ := hlacks
    have hsome := Config.isSome_lookup_environment henv k
    rw [← h.environment, hnone] at hsome
    cases hsome
  | missingSource aliasName =>
    obtain ⟨id, n, hn, source, hmem, hnone⟩ := hlacks
    have hsome := h.isSome_source hn source hmem
    rw [hnone] at hsome
    cases hsome
  | invalidGraph fault =>
    have hpos := h.nonempty
    rw [hlacks.2] at hpos
    exact absurd hpos (Nat.lt_irrefl 0)
  | unknownNode id => exact hlacks
  | joinConfiguration fault => exact h.explains_joinFault hlacks
  | unresolvedLink fault => exact h.explains_linkFault hlacks

/-- In a compilable graph the link of every join is built from a definition. -/
theorem exists_plans_of_compilable (h : Assembled q config e g) (hg : g.Compilable)
    {d : NodeDefinition} (hd : d ∈ q.joined) :
    ∃ l link, d.link = some l ∧ l.Plans link ∧ link.WellFormed ∧
      (link.usesLinkTable = true → g.linkTable.isSome = true) := by
  obtain ⟨id, partner, holder, hp, hholder, hplaced⟩ := h.exists_holder hd
  obtain ⟨holder', link, hholder', hlink, hwell, htable⟩ := hg.joins id partner hp
  cases hholder.symm.trans hholder'
  rcases hplaced.eq_or with ⟨-, hnone⟩ | ⟨l, built, hl, hbuilt, hplans⟩
  · cases hlink.symm.trans hnone
  · cases hlink.symm.trans hbuilt
    exact ⟨l, link, hl, hplans, hwell, htable⟩

/-- A compilable graph has all its links with their link types, and the link table where it is
needed. -/
theorem settled_of_compilable (h : Assembled q config e g) (hg : g.Compilable) :
    ¬q.MissesLink ∧ ¬q.OpensLinkType ∧
      (q.JoinsByLinkRow ∨ q.FiltersByLinkRow → config.linkTable.isSome = true) := by
  refine ⟨?_, ?_, ?_⟩
  · rintro ⟨d, hd, hnone⟩
    obtain ⟨l, -, hl, -⟩ := h.exists_plans_of_compilable hg hd
    rw [hnone] at hl
    cases hl
  · rintro ⟨d, hd, l, hl, hopen⟩
    obtain ⟨l', link, hl', hplans, hwell, -⟩ := h.exists_plans_of_compilable hg hd
    cases hl.symm.trans hl'
    rw [hplans.wellFormed.mp hwell] at hopen
    cases hopen
  · rw [← h.linkTable]
    rintro (⟨d, hd, l, hl, huses⟩ | ⟨d, hd, huses⟩)
    · obtain ⟨l', link, hl', hplans, -, htable⟩ := h.exists_plans_of_compilable hg hd
      cases hl.symm.trans hl'
      exact htable (hplans.usesLinkTable.trans huses)
    · obtain ⟨joins, hd⟩ := QueryDefinition.mem_all.mp hd
      obtain ⟨id, n, hn, -, hplaces⟩ := h.exists_node hd
      exact hg.filterTable id n hn (hplaces.checked.2.mpr huses)

/-- With all links, link types and the link table where it is needed, a graph is
compilable. -/
theorem compilable_of_settled (h : Assembled q config e g) (henv : config.environment = .ok e)
    (hlinks : ¬q.MissesLink) (htypes : ¬q.OpensLinkType)
    (htable : q.JoinsByLinkRow ∨ q.FiltersByLinkRow → config.linkTable.isSome = true) :
    g.Compilable where
  nonempty := h.nonempty
  keywords := by
    rw [h.environment]
    exact Config.isSome_lookup_environment henv
  sources := fun _ _ hn => h.isSome_source hn _ List.mem_cons_self
  nestedSources := fun _ _ hn source hsource =>
    h.isSome_source hn source (List.mem_cons_of_mem _ hsource)
  joins := by
    intro id partner hp
    obtain ⟨hlt, hsize⟩ := Graph.partner?_lt hp
    obtain ⟨holder, hholder⟩ : ∃ holder,
        g.node? (g.direction.linkHolder id partner) = some holder := by
      refine Graph.exists_node?_iff.mpr ?_
      cases g.direction with
      | forward => exact hlt.trans hsize
      | reverse => exact hsize
    obtain ⟨d, hd, hplaced⟩ := h.exists_joined hp hholder
    rcases hplaced.eq_or with ⟨hnone, -⟩ | ⟨l, link, hl, hlink, hplans⟩
    · exact absurd ⟨d, hd, hnone⟩ hlinks
    · refine ⟨holder, link, hholder, hlink, hplans.wellFormed.mpr ?_, fun huses => ?_⟩
      · rw [← Bool.not_eq_true]
        exact fun hopen => htypes ⟨d, hd, l, hl, hopen⟩
      · rw [h.linkTable]
        exact htable (Or.inl ⟨d, hd, l, hl, hplans.usesLinkTable.symm.trans huses⟩)
  filterTable := by
    intro id n hn hfilters
    obtain ⟨d, hd, hplaces⟩ := h.exists_places hn
    rw [h.linkTable]
    exact htable (Or.inr ⟨d, QueryDefinition.mem_all.mpr ⟨_, hd⟩,
      hplaces.checked.2.mp hfilters⟩)

end Assembled

/-! ### The guarantee -/

/-- A graph that is built from a definition has a node, and is a chain exactly if the definition
lists nodes.  It compiles exactly if all links and link types are there, and the link table
where it is needed; any error tells which of them is missing.  Configurations that have been
read have an environment to build with. -/
theorem QueryDefinition.compile_build (q : QueryDefinition) (catalog : Catalog)
    (config : Config) :
    ((∃ setting, Config.ofVariables setting = .ok config) ∨
        (∃ text, Config.ofText text = .ok config) → ∃ e, config.environment = .ok e) ∧
    ∀ e g, config.environment = .ok e → q.build catalog config e = .ok g →
      0 < g.size ∧ (g.direction = .forward ↔ q.nodes ≠ []) ∧
      ∀ mode, (∀ err, g.compile mode = .error err → q.Explains config err) ∧
        ((∃ f, g.compile mode = .ok f) ↔ ¬q.MissesLink ∧ ¬q.OpensLinkType ∧
          (q.JoinsByLinkRow ∨ q.FiltersByLinkRow → config.linkTable.isSome = true)) := by
  constructor
  · rintro (⟨setting, hsetting⟩ | ⟨text, htext⟩)
    · exact Config.exists_environment (Config.violations_of_ofVariables hsetting)
    · exact Config.exists_environment (Config.violations_of_ofText htext)
  · intro e g henv hbuild
    have h := assembled_build hbuild
    refine ⟨h.nonempty, h.direction, fun mode => ⟨fun err => h.explains henv, ?_⟩⟩
    constructor
    · rintro ⟨f, hf⟩
      exact h.settled_of_compilable (Graph.compilable_of_compile hf)
    · rintro ⟨hlinks, htypes, htable⟩
      exact (h.compilable_of_settled henv hlinks htypes htable).exists_compile mode

/-! ### Animals and stalls -/

namespace Farm

/-- The variables that configure a link table. -/
def setting (name : String) : Config.Setting :=
  if name = Config.linkTableVariable then .text "link" else .unset

/-- The configuration with a link table. -/
def config : Config where
  linkTable := some ⟨"core", "link", {}⟩

end Farm

/-- The graph of the animals with their stalls. -/
theorem QueryDefinition.compile_build_farm :
    (∃ e, Farm.config.environment = .ok e) ∧
    ∃ e g, Farm.config.environment = .ok e ∧
      Farm.herd.build Farm.catalog Farm.config e = .ok g ∧
      0 < g.size ∧ (g.direction = .forward ↔ Farm.herd.nodes ≠ []) ∧
      ∀ mode, (∀ err, g.compile mode = .error err → Farm.herd.Explains Farm.config err) ∧
        ((∃ f, g.compile mode = .ok f) ↔ ¬Farm.herd.MissesLink ∧ ¬Farm.herd.OpensLinkType ∧
          (Farm.herd.JoinsByLinkRow ∨ Farm.herd.FiltersByLinkRow →
            Farm.config.linkTable.isSome = true)) := by
  obtain ⟨hread, hbuilt⟩ := Farm.herd.compile_build Farm.catalog Farm.config
  have hsetting : Config.ofVariables Farm.setting = .ok Farm.config := by rfl
  obtain ⟨e, henv⟩ := hread (Or.inl ⟨Farm.setting, hsetting⟩)
  obtain ⟨g, hg⟩ : ∃ g, Farm.herd.build Farm.catalog Farm.config e = .ok g := ⟨_, rfl⟩
  exact ⟨⟨e, henv⟩, e, g, henv, hg, hbuilt e g henv hg⟩

end Definition

end ObjectQuery
