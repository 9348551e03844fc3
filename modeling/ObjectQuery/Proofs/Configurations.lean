import ObjectQuery.Config.Document
import ObjectQuery.Proofs.Outcome

/-!
# Configurations as they are read

A file or the variables write a configuration down.  What is read is what is written, if nothing
is wrong with it; and then it has an environment to compile with.

## Main Definitions

* `Config.written?`, `Config.ofSettings?` — what a text and what variables write down

## Main Statements

* `Config.ofText_eq_ok_iff`, `Config.ofVariables_eq_ok_iff` — what is read
* `Config.exists_environment` — valid configurations have environments
-/

namespace ObjectQuery.Config

open ObjectQuery.Calendar ObjectQuery.Number ObjectQuery.Query ObjectQuery.Outcome

deriving instance DecidableEq for Config

/-! ### What is written down -/

/-- The configuration that a text writes, valid or not. -/
def written? (text : String) : Option Config :=
  (Yaml.ofText? shape text).bind (ofDocument? .direct)

/-- The link table and the reference system that variables write, if they can be read. -/
def ofStrict? (setting : String → Setting) : Option (Option LinkTable × Option Int32) := do
  let linkTable : Option LinkTable ← match setting linkTableVariable with
    | .unset => some none
    | .text table => some (some ⟨((setting linkSchemaVariable).text?).getD "core", table, {}⟩)
    | .undecodable => none
  let srid : Option Int32 ← match setting sridVariable with
    | .unset => some none
    | .text value => (readInt32 value).toOption.map some
    | .undecodable => none
  return (linkTable, srid)

/-- The configuration that variables write, valid or not, if they can be read. -/
def ofSettings? (setting : String → Setting) : Option Config :=
  (ofStrict? setting).map fun (linkTable, srid) =>
    { maxDate := ((setting maxDateVariable).text?).getD ({} : Config).maxDate
      linkTable
      statuses := ((setting statusesVariable).text?).elim [] Text.commaItems
      srid }

variable {c : Config}

/-! ### Validation -/

/-- Validation lets a configuration through as it is, if nothing is wrong with it. -/
theorem validate_eq_ok_iff {written : Config} :
    written.validate = .ok c ↔ some written = some c ∧ c.violations = [] := by
  rw [validate, Option.some.injEq]
  cases hviolations : written.violations with
  | nil =>
    constructor
    · intro h
      cases h
      exact ⟨rfl, hviolations⟩
    · rintro ⟨rfl, -⟩
      rfl
  | cons violation rest =>
    refine iff_of_false nofun ?_
    rintro ⟨rfl, hnil⟩
    cases hviolations.symm.trans hnil

/-- A configuration with which nothing is wrong has an environment. -/
theorem exists_environment (h : c.violations = []) : ∃ e, c.environment = .ok e := by
  have hdate : (DateTime.ofConfigured? c.maxDate).isSome = true := by
    rw [← Option.isNone_eq_false_iff, Bool.eq_false_iff]
    intro hnone
    have hlast := (List.append_eq_nil_iff.mp h).2
    rw [if_pos hnone] at hlast
    cases hlast
  obtain ⟨date, hdate⟩ := Option.isSome_iff_exists.mp hdate
  have hparsed : c.parsedMaxDate = .ok date := by
    rw [parsedMaxDate, hdate]
  refine ⟨⟨.withOverrides c.keywords, date, .simpleFeatures c.srid⟩, ?_⟩
  exact bind_eq_ok_iff.mpr ⟨c, validate_eq_ok_iff.mpr ⟨rfl, h⟩,
    bind_eq_ok_iff.mpr ⟨date, hparsed, rfl⟩⟩

/-! ### What is read -/

/-- A text gives the configuration that it writes if nothing is wrong with it. -/
theorem ofText_eq_ok_iff {text : String} :
    ofText text = .ok c ↔ written? text = some c ∧ c.violations = [] := by
  unfold ofText written?
  cases (Yaml.ofText? shape text).bind (ofDocument? .direct) with
  | none => simp
  | some written => exact validate_eq_ok_iff

/-- Variables give the configuration that they write if nothing is wrong with it. -/
theorem ofVariables_eq_ok_iff {setting : String → Setting} :
    ofVariables setting = .ok c ↔ ofSettings? setting = some c ∧ c.violations = [] := by
  have hfailed {e : ConfigError} : (.error e : Except ConfigError Config) = .ok c ↔
      none = some c ∧ c.violations = [] := by simp
  unfold ofVariables ofSettings? ofStrict?
  cases setting linkTableVariable with
  | undecodable => exact hfailed
  | unset | text table =>
    cases setting sridVariable with
    | undecodable => exact hfailed
    | unset => exact validate_eq_ok_iff
    | text value =>
      dsimp only
      cases readInt32 value with
      | error cause => exact hfailed
      | ok id => exact validate_eq_ok_iff

/-- Configurations that are read from texts are valid. -/
theorem violations_of_ofText {text : String} (h : ofText text = .ok c) : c.violations = [] :=
  (ofText_eq_ok_iff.mp h).2

/-- So are those that are read from variables. -/
theorem violations_of_ofVariables {setting : String → Setting} (h : ofVariables setting = .ok c) :
    c.violations = [] :=
  (ofVariables_eq_ok_iff.mp h).2

end ObjectQuery.Config
