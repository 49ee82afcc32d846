import CrossRef.Config.Basic
import CrossRef.Toml.Reader

/-!
Settings from TOML. A record is a table, where each field has one or two names and other keys are
ignored, or an array with its fields in order. Fields that are not given keep their defaults.
-/
namespace CrossRef
namespace Config

/-- The value that a record gives to the field at a place with one of these names. A field that is
given twice is refused, and so is a value that is no record. A moment is a record without fields. -/
def field? (record : Toml) (place : Nat) (names : List String) : Option (Option Toml) :=
  match record with
  | .table members =>
    match members.filter fun (name, _) => names.contains name with
    | [] => some none
    | [(_, value)] => some (some value)
    | _ => none
  | .array items => some items[place]?
  | .moment _ => some none
  | _ => none

/-- Read a field if it is given. -/
def readField (read? : Toml → Option α) (initial : α) (record : Toml) (place : Nat)
    (names : List String) : Option α :=
  match field? record place names with
  | some (some value) => read? value
  | some none => some initial
  | none => none

def text? : Toml → Option String
  | .text s => some s
  | _ => none

def bool? : Toml → Option Bool
  | .bool b => some b
  | _ => none

def texts? : Toml → Option (List String)
  | .array items => items.mapM text?
  | _ => none

/-- Does a variant without fields admit this value? -/
def isEmptyRecord : Toml → Bool
  | .table members => members.isEmpty
  | .array items => items.isEmpty
  | _ => false

/-- A policy by its name, which may also be the only key of a table. -/
def numbering? : Toml → Option Index.Numbering
  | .text name => Index.Numbering.ofLabel? name
  | .table [(name, value)] => if isEmptyRecord value then Index.Numbering.ofLabel? name else none
  | _ => none

def readGlobal? (record : Toml) (config : Config) : Option Config := do
  let manifest ← readField text? config.manifest record 0 ["manifest"]
  let chaptersDir ← readField text? config.chaptersDir record 1 ["chapters-dir", "chapters_dir"]
  let outputDir ← readField text? config.outputDir record 2 ["output-dir", "output_dir"]
  let templatesDir ← readField (fun value => (text? value).map some) config.templatesDir record 3
    ["templates-dir", "templates_dir"]
  let reportDir ← readField (fun value => (text? value).map some) config.reportDir record 4
    ["report-dir", "report_dir"]
  let assets ← readField texts? config.assets record 5 ["assets"]
  let disable ← readField texts? config.disable record 6 ["disable"]
  return { config with manifest, chaptersDir, outputDir, templatesDir, reportDir, assets, disable }

def readEquations? (record : Toml) (config : Config) : Option Config := do
  let numbering ← readField numbering? config.numbering record 0 ["numbering"]
  return { config with numbering }

def readLinks? (record : Toml) (config : Config) : Option Config := do
  let equationTargets ← readField bool? config.equationTargets record 0
    ["equation-targets", "equation_targets"]
  return { config with equationTargets }

/-- The settings that a document stands for. -/
def ofToml? (document : Toml) : Option Config := do
  let config := Config.default
  let config ← readField (readGlobal? · config) config document 0 ["global"]
  let config ← readField (readEquations? · config) config document 1 ["equations"]
  readField (readLinks? · config) config document 2 ["links"]

/-- The settings that a text is written for. -/
def read? (written : String) : Option Config := (Toml.read? written).bind ofToml?

end Config
end CrossRef
