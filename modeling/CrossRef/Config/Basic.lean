import CrossRef.Index.Equation
import CrossRef.Text.Blank
import CrossRef.Text.Digit

/-!
The settings of a build.
-/
namespace CrossRef

structure Config where
  /-- The path of the manifest. -/
  manifest : String
  /-- The directory with one source for each chapter. -/
  chaptersDir : String
  outputDir : String
  templatesDir : Option String
  /-- Where reports are written; without it there are none. -/
  reportDir : Option String
  /-- Files and directories that are copied as they are. -/
  assets : List String
  /-- Names of passes that are left out. -/
  disable : List String
  numbering : Index.Numbering
  /-- Do links to equations in other chapters get the file of that chapter too? -/
  equationTargets : Bool
  deriving DecidableEq, Repr, Inhabited

namespace Config

def default : Config where
  manifest := "chapters-manifest.json"
  chaptersDir := "chapters"
  outputDir := "dist"
  templatesDir := none
  reportDir := none
  assets := []
  disable := []
  numbering := .allDisplay
  equationTargets := false

/-- Does an entry of the list name the pass, apart from blanks and the case of ASCII letters? -/
def disables (config : Config) (pass : String) : Bool :=
  config.disable.any fun entry => Text.equalIgnoringAsciiCase (Text.trim entry) pass

end Config
end CrossRef
