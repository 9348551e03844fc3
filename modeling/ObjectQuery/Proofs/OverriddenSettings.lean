import ObjectQuery.CommandLine.Run
import ObjectQuery.Proofs.Configurations

/-!
# Options in place of configured settings

A configuration is read from a file or from variables and validated, then options are put in
place of its settings, and what comes out is validated again.  So a setting that an option
replaces decides nothing, with one exception: the end of time has to be a date before it is
replaced.

## Main Definitions

* `Replaceable` — the settings that options replace
* `System.written?` — the configuration of a file or of the variables, not validated
* `System.HasDate` — the configured end of time is a date
* `DifferIn` — sources that differ in one setting only
* `Outcome.Alike` — outcomes with the same exit code and output

## Main Statements

* `loadConfig_eq_ok_iff`, `compileQuery_eq_ok_iff` — loading, overriding and compiling
* `hasDate_of_loadConfig` — what is loaded has a date as the end of time
* `DifferIn.map_reset_written?` — what sources that differ in one setting write down
* `compileQuery_of_differIn` — a replaced setting does not matter for the statement
* `run_alike` — nor for what is printed and how the command ends
-/

namespace ObjectQuery.CommandLine

open ObjectQuery.Calendar ObjectQuery.Outcome ObjectQuery.Query ObjectQuery.Sql

/-! ### Settings that options replace -/

/-- A setting that an option replaces. -/
inductive Replaceable
  | maxDate
  | statuses
  deriving DecidableEq

namespace Replaceable

/-- A configuration with the default in place of a setting. -/
def reset : Replaceable → Config → Config
  | .maxDate, c => { c with maxDate := ({} : Config).maxDate }
  | .statuses, c => { c with statuses := ({} : Config).statuses }

/-- The variable that a setting is read from. -/
def variableName : Replaceable → String
  | .maxDate => Config.maxDateVariable
  | .statuses => Config.statusesVariable

/-- The option that replaces a setting is given. -/
def IsGiven (o : Options) : Replaceable → Prop
  | .maxDate => o.maxDate.isSome = true
  | .statuses => o.statuses ≠ []

variable {o : Options}

/-- A setting that is replaced may have been reset before. -/
theorem IsGiven.override_reset {r : Replaceable} (h : r.IsGiven o) (c : Config) :
    override o (r.reset c) = override o c := by
  cases r with
  | maxDate =>
    obtain ⟨date, hdate⟩ := Option.isSome_iff_exists.mp h
    unfold override reset
    rw [hdate]
    rfl
  | statuses =>
    have hnonempty : o.statuses.isEmpty = false := List.isEmpty_eq_false_iff.mpr h
    unfold override reset
    rw [hnonempty]
    rfl

end Replaceable

/-- Of the settings that options replace, the end of time alone can be wrong. -/
theorem violations_eq_nil_iff {c : Config} :
    c.violations = [] ↔ (Replaceable.maxDate.reset c).violations = [] ∧
      (DateTime.ofConfigured? c.maxDate).isSome = true := by
  have hdate (date : Option DateTime) :
      (if date.isNone = true then [Config.Violation.maxDate] else []) = [] ↔
        date.isSome = true := by
    cases date <;> simp
  have hdefault : (DateTime.ofConfigured? ({} : Config).maxDate).isSome = true := by decide
  unfold Config.violations Replaceable.reset
  simp only [List.append_eq_nil_iff, hdate]
  exact ⟨fun ⟨hothers, h⟩ => ⟨⟨hothers, hdefault⟩, h⟩, fun ⟨⟨hothers, _⟩, h⟩ => ⟨hothers, h⟩⟩

/-! ### Loading -/

/-- The configuration of a file or of the variables, valid or not, if it can be read. -/
def System.written? (s : System) : (path : Option String) → Option Config
  | none => Config.ofSettings? s.settings
  | some path => (s.file? path).bind Config.written?

/-- The configured end of time is a date. -/
def System.HasDate (s : System) (path : Option String) : Prop :=
  ((s.written? path).any fun c => (DateTime.ofConfigured? c.maxDate).isSome) = true

instance (s : System) (path : Option String) : Decidable (s.HasDate path) :=
  inferInstanceAs (Decidable (_ = true))

section Loading

variable {s : System} {o : Options} {c : Config}

/-- What is loaded is what is written down, if nothing is wrong with it. -/
theorem loadConfig_eq_ok_iff {path : Option String} :
    loadConfig s path = .ok c ↔ s.written? path = some c ∧ c.violations = [] := by
  cases path with
  | none =>
    rw [System.written?, ← Config.ofVariables_eq_ok_iff, loadConfig]
    cases Config.ofVariables s.settings <;> simp [Except.mapError]
  | some path =>
    rw [System.written?, loadConfig]
    cases s.file? path with
    | none => simp
    | some text =>
      rw [Option.bind_some, ← Config.ofText_eq_ok_iff]
      dsimp only
      cases Config.ofText text <;> simp [Except.mapError]

/-- Without a date as the end of time nothing is loaded. -/
theorem hasDate_of_loadConfig {path : Option String} (h : loadConfig s path = .ok c) :
    s.HasDate path := by
  obtain ⟨hc, hvalid⟩ := loadConfig_eq_ok_iff.mp h
  rw [System.HasDate, hc]
  exact (violations_eq_nil_iff.mp hvalid).2

/-- A statement is that of the configuration that is written down, if nothing is wrong with it,
with the options in place of its settings. -/
theorem compileQuery_eq_ok_iff {f : Fragment} :
    compileQuery s o = .ok f ↔ ∃ c, s.written? o.config = some c ∧ c.violations = [] ∧
      compileWith s o (override o c) = .ok f := by
  rw [compileQuery, bind_eq_ok_iff]
  simp only [loadConfig_eq_ok_iff, and_assoc]

end Loading

/-! ### Sources that differ in one setting -/

/-- Two sources of a configuration, both files or both variables, write down the same settings
but for one. -/
inductive DifferIn (r : Replaceable) (s s' : System) : (path path' : Option String) → Prop
  | inFiles {path path' text text' : String} (hfile : s.file? path = some text)
      (hfile' : s'.file? path' = some text')
      (h : (Config.written? text).map r.reset = (Config.written? text').map r.reset) :
      DifferIn r s s' (some path) (some path')
  | inVariables (h : ∀ name ∈ variableNames, name ≠ r.variableName →
      s.settings name = s'.settings name) : DifferIn r s s' none none

/-- Variables that differ in one setting write down the same settings but for that one. -/
theorem map_reset_ofSettings? {r : Replaceable} {setting setting' : String → Config.Setting}
    (h : ∀ name ∈ variableNames, name ≠ r.variableName → setting name = setting' name) :
    (Config.ofSettings? setting).map r.reset = (Config.ofSettings? setting').map r.reset := by
  have hstrict : Config.ofStrict? setting = Config.ofStrict? setting' := by
    unfold Config.ofStrict?
    rw [h Config.linkTableVariable (by decide) (by cases r <;> decide),
      h Config.linkSchemaVariable (by decide) (by cases r <;> decide),
      h Config.sridVariable (by decide) (by cases r <;> decide)]
  unfold Config.ofSettings?
  rw [hstrict, Option.map_map, Option.map_map]
  cases r with
  | maxDate =>
    rw [h Config.statusesVariable (by decide) (by decide)]
    rfl
  | statuses =>
    rw [h Config.maxDateVariable (by decide) (by decide)]
    rfl

namespace DifferIn

variable {r : Replaceable} {s s' : System} {path path' : Option String}

theorem symm (h : DifferIn r s s' path path') : DifferIn r s' s path' path := by
  cases h with
  | inFiles hfile hfile' h => exact .inFiles hfile' hfile h.symm
  | inVariables h => exact .inVariables fun name hmem hname => (h name hmem hname).symm

/-- Sources that differ in one setting are both read or both not, and write down the same when it
is reset. -/
theorem map_reset_written? (h : DifferIn r s s' path path') :
    (s.written? path).map r.reset = (s'.written? path').map r.reset := by
  cases h with
  | inFiles hfile hfile' h =>
    rw [System.written?, System.written?, hfile, hfile']
    exact h
  | inVariables h => exact map_reset_ofSettings? h

end DifferIn

/-! ### Compiling with a replaced setting -/

section Runs

variable {s s' : System} {o : Options} {path' : Option String}

/-- Of the files, those of the catalog and of the query are read for a configuration. -/
theorem compileWith_congr (hcatalog : s.file? o.catalog = s'.file? o.catalog)
    (hquery : s.file? o.query = s'.file? o.query) (c : Config) :
    compileWith s o c = compileWith s' { o with config := path' } c := by
  unfold compileWith loadCatalog loadQuery
  rw [hcatalog, hquery]

/-- A setting that is replaced does not matter for the statement, as long as the end of time is
a date in either source. -/
theorem compileQuery_of_differIn {r : Replaceable}
    (hcatalog : s.file? o.catalog = s'.file? o.catalog)
    (hquery : s.file? o.query = s'.file? o.query) (hgiven : r.IsGiven o)
    (hdiffer : DifferIn r s s' o.config path')
    (hdate : r = .maxDate → s.HasDate o.config → s'.HasDate path') {f : Fragment}
    (h : compileQuery s o = .ok f) : compileQuery s' { o with config := path' } = .ok f := by
  obtain ⟨c, hc, hvalid, hcompile⟩ := compileQuery_eq_ok_iff.mp h
  have hreset := hdiffer.map_reset_written?
  rw [hc] at hreset
  obtain ⟨c', hc', hsame⟩ := Option.map_eq_some_iff.mp hreset.symm
  have hvalid' : c'.violations = [] := by
    cases r with
    | maxDate =>
      obtain ⟨hothers, hdated⟩ := violations_eq_nil_iff.mp hvalid
      have hdated' : s'.HasDate path' := hdate rfl (by rwa [System.HasDate, hc])
      rw [System.HasDate, hc'] at hdated'
      exact violations_eq_nil_iff.mpr ⟨hsame ▸ hothers, hdated'⟩
    | statuses =>
      show (Replaceable.statuses.reset c').violations = []
      rw [hsame]
      exact hvalid
  have hoverridden : override o c' = override o c := by
    rw [← hgiven.override_reset c', hsame, hgiven.override_reset c]
  refine compileQuery_eq_ok_iff.mpr ⟨c', hc', hvalid', ?_⟩
  rw [← compileWith_congr hcatalog hquery]
  exact (congrArg (compileWith s o) hoverridden).trans hcompile

end Runs

/-! ### Outcomes -/

/-- Two outcomes have the same exit code and the same text on standard output. -/
def Outcome.Alike (x y : Outcome) : Prop := x.exitCode = y.exitCode ∧ x.output = y.output

instance (x y : Outcome) : Decidable (x.Alike y) :=
  inferInstanceAs (Decidable (x.exitCode = y.exitCode ∧ x.output = y.output))

section Outcomes

variable {s s' : System} {words words' : List String} {o : Options} {path' : Option String}

/-- A statement is printed. -/
theorem run_of_ok (hwords : Command.ofWords words = .ok (.compile o)) {f : Fragment}
    (h : compileQuery s o = .ok f) : run s words = .printed (printed o f) := by
  rw [run, hwords]
  dsimp only [Command.run]
  rw [h]

/-- Without a statement nothing is printed. -/
theorem run_of_error (hwords : Command.ofWords words = .ok (.compile o)) {failure : Failure}
    (h : compileQuery s o = .error failure) : run s words = .failed failure := by
  rw [run, hwords]
  dsimp only [Command.run]
  rw [h]

/-- Runs whose sources differ in a replaced setting are alike, if the end of time is a date in
both or in neither. -/
theorem alike_of_differIn {r : Replaceable}
    (hwords : Command.ofWords words = .ok (.compile o))
    (hwords' : Command.ofWords words' = .ok (.compile { o with config := path' }))
    (hcatalog : s.file? o.catalog = s'.file? o.catalog)
    (hquery : s.file? o.query = s'.file? o.query) (hgiven : r.IsGiven o)
    (hdiffer : DifferIn r s s' o.config path')
    (hdate : r = .maxDate → (s.HasDate o.config ↔ s'.HasDate path')) :
    (run s words).Alike (run s' words') := by
  -- The two systems may change places.
  have hforth {f : Fragment} : compileQuery s o = .ok f →
      compileQuery s' { o with config := path' } = .ok f :=
    compileQuery_of_differIn hcatalog hquery hgiven hdiffer fun hr => (hdate hr).mp
  have hback {f : Fragment} : compileQuery s' { o with config := path' } = .ok f →
      compileQuery s o = .ok f :=
    compileQuery_of_differIn (o := { o with config := path' }) hcatalog.symm hquery.symm
      (by cases r <;> exact hgiven) hdiffer.symm fun hr => (hdate hr).mpr
  cases hresult : compileQuery s o with
  | ok f =>
    rw [run_of_ok hwords hresult, run_of_ok hwords' (hforth hresult)]
    exact ⟨rfl, rfl⟩
  | error failure =>
    cases hresult' : compileQuery s' { o with config := path' } with
    | ok f => cases (hback hresult').symm.trans hresult
    | error failure' =>
      rw [run_of_error hwords hresult, run_of_error hwords' hresult']
      exact ⟨rfl, rfl⟩

/-- Two runs with the same options on the same catalog and query, but with sources of the
configuration that differ in a setting which an option replaces, end with the same exit code and
print the same.  The accepted statuses may be any; the configured end of time has to be a date in
both sources or in neither, for a source in which it is no date fails to load, even if an option
replaces it, and that is what the run fails with. -/
theorem run_alike (s s' : System) (hwords : Command.ofWords words = .ok (.compile o))
    (hwords' : Command.ofWords words' = .ok (.compile { o with config := path' }))
    (hcatalog : s.file? o.catalog = s'.file? o.catalog)
    (hquery : s.file? o.query = s'.file? o.query) :
    (o.maxDate.isSome = true → DifferIn .maxDate s s' o.config path' →
        (s.HasDate o.config ↔ s'.HasDate path') → (run s words).Alike (run s' words')) ∧
      (o.statuses ≠ [] → DifferIn .statuses s s' o.config path' →
        (run s words).Alike (run s' words')) ∧
      (¬s.HasDate o.config → ∃ failure, loadConfig s o.config = .error failure ∧
        run s words = .failed failure ∧
        (run s words).exitCode = 1 ∧ (run s words).output = "") := by
  refine ⟨fun hgiven hdiffer hdate => ?_, fun hgiven hdiffer => ?_, fun hdate => ?_⟩
  · exact alike_of_differIn (r := .maxDate) hwords hwords' hcatalog hquery hgiven hdiffer
      fun _ => hdate
  · exact alike_of_differIn (r := .statuses) hwords hwords' hcatalog hquery hgiven hdiffer nofun
  · cases hload : loadConfig s o.config with
    | ok c => exact absurd (hasDate_of_loadConfig hload) hdate
    | error failure =>
      have hresult : compileQuery s o = .error failure := by
        rw [compileQuery, hload]
        rfl
      rw [run_of_error hwords hresult]
      exact ⟨failure, rfl, rfl, rfl, rfl⟩

end Outcomes

/-! ### The animals of a farm -/

namespace Farm

/-- The files of a catalog, of a query for the animals and of a configuration. -/
def files (config path : String) : Option String :=
  if path = "catalog.yaml" then
    some "tables:\n- object_type_id: 2\n  name: ANIMAL\n  schema: farm\n  table_name: animal\n"
  else if path = "query.yaml" then some "nodes:\n- table: ANIMAL\n  fields: [object_id]\n"
  else if path = "config.yaml" then some config
  else none

/-- A system with a configured end of time in its variables. -/
def dated (date : String) : System :=
  ⟨files "", fun name => if name = Config.maxDateVariable then .text date else .unset⟩

/-- A system with accepted statuses in its file. -/
def accepting (status : String) : System :=
  ⟨files ("link_statuses: [" ++ status ++ "]\n"), fun _ => .unset⟩

/-- The options that replace the end of time. -/
def untilThen : Options where
  catalog := "catalog.yaml"
  query := "query.yaml"
  maxDate := some "2030-01-01 00:00:00"

/-- The options that replace the accepted statuses of a file. -/
def approved : Options where
  catalog := "catalog.yaml"
  query := "query.yaml"
  config := some "config.yaml"
  statuses := ["APPROVED"]

/-- The words that replace the end of time. -/
def untilThenWords : List String :=
  ["compile", "--catalog", "catalog.yaml", "--query", "query.yaml",
    "--max-date", "2030-01-01 00:00:00"]

/-- The words that replace the accepted statuses of a file. -/
def approvedWords : List String :=
  ["compile", "--catalog", "catalog.yaml", "--query", "query.yaml", "--config", "config.yaml",
    "--link-status", "APPROVED"]

theorem ofWords_untilThen : Command.ofWords untilThenWords = .ok (.compile untilThen) := by
  rfl

theorem ofWords_approved : Command.ofWords approvedWords = .ok (.compile approved) := by
  rfl

/-- The systems differ in the end of time. -/
theorem differIn_dated (date date' : String) :
    DifferIn .maxDate (dated date) (dated date') none none :=
  .inVariables fun _ _ hname => (if_neg hname).trans (if_neg hname).symm

end Farm

/-- The animals until a given time, whatever date the variables hold, and with a given accepted
status, whatever status the file holds; a variable that holds no date is refused. -/
theorem run_alike_farm :
    (run (Farm.dated "2020-01-01 00:00:00") Farm.untilThenWords).Alike
        (run (Farm.dated "2021-01-01 00:00:00") Farm.untilThenWords) ∧
      (run (Farm.accepting "VALID") Farm.approvedWords).Alike
        (run (Farm.accepting "DRAFT") Farm.approvedWords) ∧
      (run (Farm.dated "never") Farm.untilThenWords).exitCode = 1 ∧
      (run (Farm.dated "never") Farm.untilThenWords).output = "" ∧
      (run (Farm.dated "never") Farm.untilThenWords).context? =
        some "reading REPOQUERY_* environment" := by
  have hdates (date date' : String) := run_alike (Farm.dated date) (Farm.dated date')
    Farm.ofWords_untilThen Farm.ofWords_untilThen rfl rfl
  have hstatuses := run_alike (Farm.accepting "VALID") (Farm.accepting "DRAFT")
    Farm.ofWords_approved Farm.ofWords_approved rfl rfl
  obtain ⟨failure, hload, hfailed, hcode, houtput⟩ := (hdates "never" "never").2.2 (by decide)
  refine ⟨?_, ?_, hcode, houtput, ?_⟩
  · exact (hdates _ _).1 rfl (Farm.differIn_dated _ _) (iff_of_true (by decide) (by decide))
  · exact hstatuses.2.1 (List.cons_ne_nil _ _) (.inFiles rfl rfl (by decide +kernel))
  · cases hload
    rw [hfailed]
    rfl

/-- An end of time that is no date is refused although it is replaced. -/
theorem exists_run_not_alike :
    Command.ofWords Farm.untilThenWords = .ok (.compile Farm.untilThen) ∧
      DifferIn .maxDate (Farm.dated "never") (Farm.dated "2020-01-01 00:00:00") none none ∧
      ¬(run (Farm.dated "never") Farm.untilThenWords).Alike
        (run (Farm.dated "2020-01-01 00:00:00") Farm.untilThenWords) :=
  ⟨Farm.ofWords_untilThen, Farm.differIn_dated _ _, by decide +kernel⟩

end ObjectQuery.CommandLine
