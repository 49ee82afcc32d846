import CrossRef.Config.Located
import CrossRef.Text.Blank

/-!
Commands and their options. An option that names a path is taken relative to the working directory
and goes before the settings, wherever their file is.
-/
namespace CrossRef
namespace CommandLine

inductive ColorChoice
  | auto
  | always
  | never
  deriving DecidableEq, Repr, Inhabited

namespace ColorChoice

def label : ColorChoice → String
  | auto => "auto"
  | always => "always"
  | never => "never"

def ofLabel? (label : String) : Option ColorChoice :=
  [auto, always, never].find? fun choice => choice.label = label

/-- Is output coloured, when it goes to a terminal or elsewhere? -/
def isColored (isTerminal : Bool) : ColorChoice → Bool
  | auto => isTerminal
  | always => true
  | never => false

end ColorChoice

/-- Options of every command. -/
structure Options where
  color : ColorChoice
  configFile : Option String
  ignoresConfigFiles : Bool
  isVerbose : Bool
  isQuiet : Bool
  deriving DecidableEq, Repr, Inhabited

/-- Where the manifest and the sources are, instead of where the settings say. -/
structure SourceOverrides where
  manifest : Option String
  chapters : Option String
  deriving DecidableEq, Repr, Inhabited

structure BuildOverrides where
  sources : SourceOverrides
  out : Option String
  templates : Option String
  report : Option String
  /-- More passes to leave out, with commas between them. -/
  disable : Option String
  deriving DecidableEq, Repr, Inhabited

inductive Command
  | build (overrides : BuildOverrides)
  | index (overrides : SourceOverrides)
  | passes
  | init
  | config (isDefault : Bool)
  | schema
  deriving DecidableEq, Repr, Inhabited

/-- The absolute path that an option means. -/
def pathOption (here : Path) (option : String) : String := (Path.absoluteIn here ⟨option⟩).text

def SourceOverrides.apply (overrides : SourceOverrides) (here : Path) (loaded : LocatedConfig) :
    LocatedConfig :=
  let config := loaded.config
  { loaded with
    config := { config with
      manifest := (overrides.manifest.map (pathOption here)).getD config.manifest
      chaptersDir := (overrides.chapters.map (pathOption here)).getD config.chaptersDir } }

/-- The names in a list with commas. -/
def namesOf (list : String) : List String :=
  ((Text.fields ',' list).map Text.trim).filter fun name => !name.isEmpty

def BuildOverrides.apply (overrides : BuildOverrides) (here : Path) (loaded : LocatedConfig) :
    LocatedConfig :=
  let loaded := overrides.sources.apply here loaded
  let config := loaded.config
  { loaded with
    config := { config with
      outputDir := (overrides.out.map (pathOption here)).getD config.outputDir
      templatesDir := (overrides.templates.map (pathOption here)).or config.templatesDir
      reportDir := (overrides.report.map (pathOption here)).or config.reportDir
      disable := config.disable ++ (overrides.disable.map namesOf).getD [] } }

end CommandLine
end CrossRef
