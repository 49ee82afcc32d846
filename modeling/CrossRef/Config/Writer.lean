import CrossRef.Config.Basic
import CrossRef.Toml.Writer

/-!
Settings as TOML, with every field but the directories that are not set.
-/
namespace CrossRef
namespace Config

open Toml

def optionalLine (key : String) : Option String → String
  | some value => assignmentLine key (quote value)
  | none => ""

def globalLines (config : Config) : String :=
  headerLine "global" ++
    assignmentLine "manifest" (quote config.manifest) ++
    assignmentLine "chapters-dir" (quote config.chaptersDir) ++
    assignmentLine "output-dir" (quote config.outputDir) ++
    optionalLine "templates-dir" config.templatesDir ++
    optionalLine "report-dir" config.reportDir ++
    assignmentLine "assets" (quoteAll config.assets) ++
    assignmentLine "disable" (quoteAll config.disable)

def equationLines (config : Config) : String :=
  headerLine "equations" ++ assignmentLine "numbering" (quote config.numbering.label)

def linkLines (config : Config) : String :=
  headerLine "links" ++
    assignmentLine "equation-targets" (if config.equationTargets then "true" else "false")

/-- The text of settings. -/
def write (config : Config) : String :=
  config.globalLines ++ "\n" ++ config.equationLines ++ "\n" ++ config.linkLines

end Config
end CrossRef
