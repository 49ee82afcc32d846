import CrossRef.Config.Reader
import CrossRef.Config.Writer
import CrossRef.Proofs.Toml.Document

/-!
Settings that are read as they were written, whatever texts stand in them and whichever of the optional
directories are set.
-/
namespace CrossRef
namespace Config

open Toml

/-! ### What is written -/

def optionalMember (key : String) : Option String → List (String × Toml)
  | some value => [(key, .text value)]
  | none => []

def globalMembers (config : Config) : List (String × Toml) :=
  [("manifest", .text config.manifest), ("chapters-dir", .text config.chaptersDir),
      ("output-dir", .text config.outputDir)] ++
    optionalMember "templates-dir" config.templatesDir ++
    optionalMember "report-dir" config.reportDir ++
    [("assets", .array (config.assets.map .text)), ("disable", .array (config.disable.map .text))]

/-- The tables of the settings. -/
def sections (config : Config) : List Section :=
  [⟨"global", config.globalMembers⟩, ⟨"equations", [("numbering", .text config.numbering.label)]⟩,
    ⟨"links", [("equation-targets", .bool config.equationTargets)]⟩]

theorem document_optionalLine (key : String) (hkey : IsBare key) (value? : Option String) :
    Document (optionalLine key value?).toList (assignments (optionalMember key value?)) := by
  cases value? with
  | none => exact .nil
  | some value => exact .textLine key hkey value

theorem document_globalLines (config : Config) :
    Document config.globalLines.toList (Section.statements ⟨"global", config.globalMembers⟩) := by
  have h := (Document.headerLine "global" (by decide)).append <|
    (Document.textLine "manifest" (by decide) config.manifest).append <|
    (Document.textLine "chapters-dir" (by decide) config.chaptersDir).append <|
    (Document.textLine "output-dir" (by decide) config.outputDir).append <|
    (document_optionalLine "templates-dir" (by decide) config.templatesDir).append <|
    (document_optionalLine "report-dir" (by decide) config.reportDir).append <|
    (Document.textsLine "assets" (by decide) config.assets).append <|
    Document.textsLine "disable" (by decide) config.disable
  simpa [globalLines, Section.statements, globalMembers, assignments] using h

theorem document_equationLines (config : Config) :
    Document config.equationLines.toList
      (Section.statements ⟨"equations", [("numbering", .text config.numbering.label)]⟩) := by
  have h := (Document.headerLine "equations" (by decide)).append <|
    Document.textLine "numbering" (by decide) config.numbering.label
  simpa [equationLines, Section.statements, assignments] using h

theorem document_linkLines (config : Config) :
    Document config.linkLines.toList
      (Section.statements ⟨"links", [("equation-targets", .bool config.equationTargets)]⟩) := by
  have h := (Document.headerLine "links" (by decide)).append <|
    Document.boolLine "equation-targets" (by decide) config.equationTargets
  simpa [linkLines, Section.statements, assignments] using h

theorem document_write (config : Config) :
    Document config.write.toList (config.sections.flatMap Section.statements) := by
  have h := config.document_globalLines.append <| .emptyLine <|
    config.document_equationLines.append <| .emptyLine config.document_linkLines
  simpa [write, sections] using h

theorem sections_nodup (config : Config) :
    (config.sections.map Section.header).Nodup ∧
      ∀ table ∈ config.sections, (table.members.map Prod.fst).Nodup := by
  refine ⟨show ["global", "equations", "links"].Nodup by decide, fun table htable => ?_⟩
  simp only [sections, List.mem_cons, List.not_mem_nil, or_false] at htable
  rcases htable with rfl | rfl | rfl
  · cases htemplates : config.templatesDir <;> cases hreport : config.reportDir <;>
      simp [globalMembers, optionalMember, htemplates, hreport]
  · simp
  · simp

theorem tomlRead?_write (config : Config) :
    Toml.read? config.write = some (.table (config.sections.map Section.toMember)) := by
  rw [config.document_write.read?_eq]
  · exact Section.ofStatements?_eq config.sections_nodup.1 config.sections_nodup.2
  · simp [write, globalLines, headerLine]

/-! ### What is read -/

theorem texts?_map_text (texts : List String) : texts? (.array (texts.map .text)) = some texts := by
  rw [texts?]
  induction texts with
  | nil => rfl
  | cons s texts ih => simp [text?, ih]

theorem numbering?_label (numbering : Index.Numbering) :
    numbering? (.text numbering.label) = some numbering := by
  cases numbering <;> rfl

/-- The directories that are not written keep their defaults, which are none. -/
theorem readGlobal?_globalMembers (config : Config) {initial : Config}
    (htemplates : initial.templatesDir = none) (hreport : initial.reportDir = none) :
    readGlobal? (.table config.globalMembers) initial =
      some { config with
        numbering := initial.numbering, equationTargets := initial.equationTargets } := by
  obtain ⟨manifest, chaptersDir, outputDir, templatesDir, reportDir, assets, disable, _, _⟩ := config
  cases templatesDir <;> cases reportDir <;>
    simp [globalMembers, optionalMember, readGlobal?, readField, field?, text?, texts?_map_text,
      htemplates, hreport]

theorem ofToml?_sections (config : Config) :
    ofToml? (.table (config.sections.map Section.toMember)) = some config := by
  have htemplates : default.templatesDir = none := rfl
  have hglobal := readGlobal?_globalMembers config htemplates rfl
  simp [ofToml?, sections, Section.toMember, readField, field?, hglobal, readEquations?, readLinks?,
    numbering?_label, bool?]

/-- Settings are read from what is written for them. -/
theorem read?_write (config : Config) : read? config.write = some config := by
  rw [read?, tomlRead?_write, Option.bind_some, ofToml?_sections]

end Config
end CrossRef
