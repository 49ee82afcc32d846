import CrossRef.Config.Reader
import CrossRef.Files.Basic

/-!
Settings together with the directory that their paths are relative to: that of their file, or the
working directory when no file is used. A file is looked for in a directory and those above it, up to
the first one that holds a repository.
-/
namespace CrossRef

/-- Why there are no settings. -/
inductive ConfigFault
  | unreadable (path : Path) (fault : FileFault)
  | malformed
  | alreadyThere (path : Path)
  | notThere (path : Path)
  deriving DecidableEq, Repr, Inhabited

namespace ConfigFault

def message : ConfigFault → String
  | unreadable path fault =>
    "Failed to read config file at " ++ path.text ++ ": " ++ fault.message
  | malformed => "Failed to parse config"
  | alreadyThere path => "Configuration file already exists at " ++ path.text
  | notThere path => "Config file not found: " ++ path.text

/-- The fault of a file behind this one. -/
def cause? : ConfigFault → Option FileFault
  | unreadable _ fault => some fault
  | _ => none

end ConfigFault

structure LocatedConfig where
  config : Config
  /-- The file that the settings are from. -/
  source : Option Path
  /-- The directory that paths are relative to. -/
  base : Path
  deriving DecidableEq, Repr, Inhabited

namespace LocatedConfig

/-- The defaults in a directory. -/
def defaults (base : Path) : LocatedConfig := ⟨.default, none, base⟩

def resolve (loaded : LocatedConfig) (p : String) : Path := loaded.base.join p

def manifestPath (loaded : LocatedConfig) : Path := loaded.resolve loaded.config.manifest

def chaptersDir (loaded : LocatedConfig) : Path := loaded.resolve loaded.config.chaptersDir

def outputDir (loaded : LocatedConfig) : Path := loaded.resolve loaded.config.outputDir

def templatesDir? (loaded : LocatedConfig) : Option Path :=
  loaded.config.templatesDir.map loaded.resolve

def reportDir? (loaded : LocatedConfig) : Option Path := loaded.config.reportDir.map loaded.resolve

def assets (loaded : LocatedConfig) : List Path := loaded.config.assets.map loaded.resolve

end LocatedConfig

namespace Config

/-- The directory of a file. -/
def baseOf (file : Path) : Path :=
  match file.parent? with
  | some parent => if parent.text.isEmpty then ⟨"."⟩ else parent
  | none => ⟨"."⟩

/-- The name that a new settings file gets. -/
def newFileName : String := ".chapterlink.toml"

/-- Names of settings files; of two in one directory the first is used. -/
def fileNames : List String := [newFileName, "chapterlink.toml"]

def repositoryName : String := ".git"

/-- How many directories are searched. -/
def maxSearched : Nat := 100

/-- A directory and those above it. -/
def searched (directory : Path) : List Path := directory :: directory.above (maxSearched - 1)

variable {m : Type → Type} [Monad m] [FileAccess m]

def ofFile (file : Path) : m (Except ConfigFault LocatedConfig) := do
  match ← Files.readText file with
  | .error fault => return .error (.unreadable file fault)
  | .ok text =>
    match read? text with
    | none => return .error .malformed
    | some config => return .ok ⟨config, some file, baseOf file⟩

/-- The first of the paths that is a file. -/
def firstFile? : List Path → m (Option Path)
  | [] => return none
  | p :: rest => do if ← Files.isFile p then return some p else firstFile? rest

/-- Look for a settings file in directories, one after the other. -/
def findIn? : List Path → m (Option Path)
  | [] => return none
  | directory :: above => do
    match ← firstFile? (fileNames.map directory.join) with
    | some file => return some file
    | none =>
      if ← Files.exists? (directory.join repositoryName) then return none else findIn? above

def find? (directory : Path) : m (Option Path) := findIn? (searched directory)

/-- The settings of the given file, or else of the file that is found from the working directory. -/
def load (file : Option Path) (ignoreFiles : Bool) : m (Except ConfigFault LocatedConfig) := do
  let here ← FileAccess.workingDirectory
  if ignoreFiles then return .ok (.defaults here)
  match file with
  | some file => if ← Files.exists? file then ofFile file else return .error (.notThere file)
  | none =>
    match ← find? here with
    | some file => ofFile file
    | none => return .ok (.defaults here)

/-- The text of a new settings file. -/
def initialText : String := String.intercalate "\n"
  ["# chapterlink configuration file",
    "",
    "[global]",
    "# Chapter manifest (JSON list of chapters in reading order)",
    "manifest = \"chapters-manifest.json\"",
    "",
    "# One <id>.html source file per chapter",
    "chapters-dir = \"chapters\"",
    "",
    "# Build output; chapters land in <output-dir>/chapters/",
    "output-dir = \"dist\"",
    "",
    "# Header, footer and index page templates (uncomment to enable)",
    "# templates-dir = \"_templates\"",
    "",
    "# Write header-mapping.json, equation-mapping.json and",
    "# cross-reference-analysis.json here (uncomment to enable)",
    "# report-dir = \".\"",
    "",
    "# Copied into the output directory as-is",
    "assets = [\"css\", \"js\", \"images\", \"logos\", \"sitemap.xml\"]",
    "",
    "# Passes to skip: equation-numbers, equation-refs, text-refs, link-targets",
    "disable = []",
    "",
    "[equations]",
    "# \"all-display\" numbers every display equation,",
    "# \"identified-only\" numbers only equations carrying an eq: identifier",
    "numbering = \"all-display\"",
    "",
    "[links]",
    "# Point #eq: links at the chapter that defines the equation",
    "equation-targets = false",
    ""]

/-- Write a new settings file, unless something is there. -/
def create (file : Path) : m (Except ConfigFault Unit) := do
  if ← Files.exists? file then return .error (.alreadyThere file)
  match ← Files.writeText file initialText with
  | .ok () => return .ok ()
  | .error fault => return .error (.unreadable file fault)

end Config
end CrossRef
