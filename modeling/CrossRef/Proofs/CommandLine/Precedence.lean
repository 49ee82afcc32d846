import CrossRef.CommandLine.Basic
import CrossRef.Pass.Registry
import CrossRef.Proofs.Path
import CrossRef.Proofs.Text.Blank

/-!
Options beside settings. A path that an option names is taken from the working directory, wherever the
settings are from; a path without an option is where the settings say; and a pass is left out when the
settings or the option say so.
-/
namespace CrossRef
namespace CommandLine

variable {overrides : BuildOverrides} {here : Path} {loaded : LocatedConfig} {option list : String}
variable {pass : Pass}

/-! ### Paths -/

/-- A path of a build that the settings name and that an option can name instead. -/
inductive BuildPath
  | manifest
  | chapters
  | output
  | templates
  | report
  deriving DecidableEq, Repr

namespace BuildPath

/-- What the option says. -/
def option? (overrides : BuildOverrides) : BuildPath → Option String
  | manifest => overrides.sources.manifest
  | chapters => overrides.sources.chapters
  | output => overrides.out
  | templates => overrides.templates
  | report => overrides.report

/-- What the settings say. -/
def setting? (config : Config) : BuildPath → Option String
  | manifest => some config.manifest
  | chapters => some config.chaptersDir
  | output => some config.outputDir
  | templates => config.templatesDir
  | report => config.reportDir

/-- Where a build takes it to be. -/
def place? (loaded : LocatedConfig) : BuildPath → Option Path
  | manifest => some loaded.manifestPath
  | chapters => some loaded.chaptersDir
  | output => some loaded.outputDir
  | templates => loaded.templatesDir?
  | report => loaded.reportDir?

variable {path : BuildPath}

theorem place?_eq (loaded : LocatedConfig) (path : BuildPath) :
    path.place? loaded = (path.setting? loaded.config).map loaded.base.join := by
  cases path <;> rfl

theorem setting?_apply (overrides : BuildOverrides) (here : Path) (loaded : LocatedConfig)
    (path : BuildPath) :
    path.setting? (overrides.apply here loaded).config =
      ((path.option? overrides).map (pathOption here)).or (path.setting? loaded.config) := by
  cases path with
  | manifest | chapters | output => exact Option.or_some.symm
  | templates | report => rfl

theorem place?_apply (overrides : BuildOverrides) (here : Path) (loaded : LocatedConfig)
    (path : BuildPath) :
    path.place? (overrides.apply here loaded) =
      (((path.option? overrides).map (pathOption here)).or (path.setting? loaded.config)).map
        loaded.base.join := by
  rw [place?_eq, setting?_apply]
  rfl

theorem place?_apply_of_none (h : path.option? overrides = none) :
    path.place? (overrides.apply here loaded) = path.place? loaded := by
  rw [place?_apply, h, place?_eq]
  rfl

theorem place?_apply_of_some (h : path.option? overrides = some option) :
    path.place? (overrides.apply here loaded) = some (loaded.base.join (pathOption here option)) := by
  rw [place?_apply, h]
  rfl

/-- The path that an option means in the working directory is absolute and replaces that of the
settings. -/
theorem place?_apply_of_option (hhere : here.isAbsolute = true)
    (h : path.option? overrides = some option) (hne : option ≠ "") :
    path.place? (overrides.apply here loaded) = some (here.absoluteIn ⟨option⟩) := by
  have habsolute : Path.isAbsolute ⟨pathOption here option⟩ = true :=
    (Path.absoluteIn_sameAs (p := ⟨option⟩) hhere hne).1
  rw [place?_apply_of_some h, Path.join_of_isAbsolute _ habsolute, pathOption]

/-- An empty option means no path and stays, so it leads to the directory of the settings. -/
theorem place?_apply_of_empty (h : path.option? overrides = some "") :
    path.place? (overrides.apply here loaded) = some (loaded.base.join "") :=
  place?_apply_of_some h

end BuildPath

/-! ### Passes -/

/-- Does a text name the pass, apart from blanks around it and the case of ASCII letters? -/
def Names (text : String) (pass : Pass) : Prop :=
  Text.equalIgnoringAsciiCase (Text.trim text) pass.label = true

theorem names_trim {text : String} : Names (Text.trim text) pass ↔ Names text pass := by
  rw [Names, Text.trim_trim, Names]

theorem not_names_empty (pass : Pass) : ¬ Names "" pass := by
  rw [Names]
  cases pass <;> decide

/-- Empty pieces name no pass, so it does not matter that they are left out. -/
theorem exists_namesOf (list : String) (pass : Pass) :
    (∃ name ∈ namesOf list, Names name pass) ↔ ∃ piece ∈ Text.fields ',' list, Names piece pass := by
  constructor
  · rintro ⟨name, hname, hnames⟩
    obtain ⟨hname, -⟩ := List.mem_filter.mp hname
    obtain ⟨piece, hpiece, rfl⟩ := List.mem_map.mp hname
    exact ⟨piece, hpiece, names_trim.mp hnames⟩
  · rintro ⟨piece, hpiece, hnames⟩
    have hne : Text.trim piece ≠ "" := fun hempty =>
      not_names_empty pass (hempty ▸ names_trim.mpr hnames)
    exact ⟨Text.trim piece,
      List.mem_filter.mpr ⟨List.mem_map_of_mem hpiece, by simpa using hne⟩, names_trim.mpr hnames⟩

theorem mem_enabled_iff {config : Config} :
    pass ∈ Pass.enabled config ↔ ∀ entry ∈ config.disable, ¬ Names entry pass := by
  have hall : pass ∈ Pass.all := by cases pass <;> decide
  simp [Pass.enabled, hall, Config.disables, Names]

theorem disable_apply (overrides : BuildOverrides) (here : Path) (loaded : LocatedConfig) :
    (overrides.apply here loaded).config.disable =
      loaded.config.disable ++ (overrides.disable.map namesOf).getD [] := rfl

theorem mem_enabled_apply :
    pass ∈ Pass.enabled (overrides.apply here loaded).config ↔
      (∀ entry ∈ loaded.config.disable, ¬ Names entry pass) ∧
        ∀ list, overrides.disable = some list →
          ∀ piece ∈ Text.fields ',' list, ¬ Names piece pass := by
  rw [mem_enabled_iff, disable_apply, List.forall_mem_append]
  refine and_congr_right fun _ => ?_
  cases overrides.disable with
  | none => simp
  | some list =>
    have h := not_congr (exists_namesOf list pass)
    push Not at h
    simpa using h

/-! ### Both -/

/-- A path whose option is given, and not empty, is the one that the option means in the working directory,
for all settings; any other path is where the settings say, seen from their own directory; and the passes
that run are those that neither the settings nor the option name, in the order of all. -/
theorem options_before_settings (overrides : BuildOverrides) (hhere : here.isAbsolute = true) :
    (∀ (path : BuildPath) (option : String), path.option? overrides = some option → option ≠ "" →
      ∃ p : Path, p.isAbsolute = true ∧ p.SameAs (here.join option) ∧
        ∀ loaded, path.place? (overrides.apply here loaded) = some p) ∧
    ∀ loaded,
      (∀ path : BuildPath, path.option? overrides = none →
        path.place? (overrides.apply here loaded) = path.place? loaded ∧
          path.place? loaded = (path.setting? loaded.config).map loaded.base.join) ∧
      (Pass.enabled (overrides.apply here loaded).config).Sublist Pass.all ∧
      ∀ pass, pass ∈ Pass.enabled (overrides.apply here loaded).config ↔
        (∀ entry ∈ loaded.config.disable, ¬ Names entry pass) ∧
          ∀ list, overrides.disable = some list →
            ∀ piece ∈ Text.fields ',' list, ¬ Names piece pass := by
  constructor
  · intro path option hoption hne
    obtain ⟨habsolute, hsame⟩ := Path.absoluteIn_sameAs (p := ⟨option⟩) hhere hne
    exact ⟨_, habsolute, hsame, fun loaded => BuildPath.place?_apply_of_option hhere hoption hne⟩
  · intro loaded
    exact ⟨fun path hnone => ⟨BuildPath.place?_apply_of_none hnone, BuildPath.place?_eq loaded path⟩,
      List.filter_sublist, fun pass => mem_enabled_apply⟩

/-- Settings in one directory and options given in another. -/
theorem options_beside_project :
    let overrides : BuildOverrides := ⟨⟨none, some "./src"⟩, none, none, none, some ", Text-Refs"⟩
    let here : Path := ⟨"/w"⟩
    let loaded : LocatedConfig :=
      ⟨{ Config.default with disable := ["LINK-targets "] }, none, ⟨"/w/project"⟩⟩
    here.isAbsolute = true ∧ BuildPath.chapters.option? overrides = some "./src" ∧
      (∃ p : Path, p.isAbsolute = true ∧ p.SameAs (here.join "./src") ∧
        ∀ loaded, BuildPath.chapters.place? (overrides.apply here loaded) = some p) ∧
      BuildPath.output.option? overrides = none ∧
      BuildPath.output.place? (overrides.apply here loaded) = some ⟨"/w/project/dist"⟩ ∧
      Pass.equationRefs ∈ Pass.enabled (overrides.apply here loaded).config ∧
      Pass.textRefs ∉ Pass.enabled (overrides.apply here loaded).config := by
  intro overrides here loaded
  have hhere : here.isAbsolute = true := by decide
  obtain ⟨hgiven, hloaded⟩ := options_before_settings overrides hhere
  obtain ⟨hother, -, henabled⟩ := hloaded loaded
  have houtput : BuildPath.output.place? loaded = some ⟨"/w/project/dist"⟩ := by decide +kernel
  refine ⟨hhere, rfl, hgiven .chapters "./src" rfl (by decide), rfl,
    (hother .output rfl).1.trans houtput, (henabled _).mpr ⟨?_, ?_⟩, fun htext => ?_⟩
  · simp only [Names]
    decide +kernel
  · rintro list ⟨⟩
    simp only [Names]
    decide +kernel
  · refine ((henabled _).mp htext).2 _ rfl " Text-Refs" ?_ ?_
    · decide +kernel
    · rw [Names]
      decide +kernel

/-- With an empty option the output goes where the settings are, and not to the working directory. -/
theorem empty_option_follows_settings :
    let overrides : BuildOverrides := ⟨⟨none, none⟩, some "", none, none, none⟩
    let here : Path := ⟨"/w"⟩
    let first : LocatedConfig := .defaults ⟨"/w/first"⟩
    let second : LocatedConfig := .defaults ⟨"/w/second"⟩
    first.config = second.config ∧ BuildPath.output.option? overrides = some "" ∧
      BuildPath.output.place? (overrides.apply here first) = some ⟨"/w/first/"⟩ ∧
      BuildPath.output.place? (overrides.apply here second) = some ⟨"/w/second/"⟩ ∧
      ¬ Path.SameAs ⟨"/w/first/"⟩ (here.join "") ∧ ¬ Path.SameAs ⟨"/w/second/"⟩ (here.join "") := by
  intro overrides here first second
  have hempty : BuildPath.output.option? overrides = some "" := rfl
  have hjoin : first.base.join "" = ⟨"/w/first/"⟩ ∧ second.base.join "" = ⟨"/w/second/"⟩ := by decide
  refine ⟨rfl, hempty, ?_, ?_, fun h => ?_, fun h => ?_⟩
  · rw [BuildPath.place?_apply_of_empty hempty, hjoin.1]
  · rw [BuildPath.place?_apply_of_empty hempty, hjoin.2]
  · exact absurd h.names (by decide)
  · exact absurd h.names (by decide)

end CommandLine
end CrossRef
