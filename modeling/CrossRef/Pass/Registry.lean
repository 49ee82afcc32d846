import CrossRef.Pass.EquationNumbers
import CrossRef.Pass.LinkText
import CrossRef.Pass.LinkTargets

/-!
The registry of passes. Equations are numbered before references to them are rendered, and the text
of links is changed while their targets are still local.
-/
namespace CrossRef

/-- A step that changes the markup of a chapter. -/
inductive Pass
  | equationNumbers
  | equationRefs
  | textRefs
  | linkTargets
  deriving DecidableEq, Repr, Inhabited

namespace Pass

open Markup

/-- All passes in the order in which they run. -/
def all : List Pass := [.equationNumbers, .equationRefs, .textRefs, .linkTargets]

def label : Pass → String
  | .equationNumbers => "equation-numbers"
  | .equationRefs => "equation-refs"
  | .textRefs => "text-refs"
  | .linkTargets => "link-targets"

def description : Pass → String
  | .equationNumbers => "Label display equations with chapter-scoped numbers"
  | .equationRefs => "Render equation reference text from the equation index"
  | .textRefs => "Render chapter and section reference text from the section index"
  | .linkTargets => "Rewrite cross-chapter link targets to the owning chapter file"

/-- The pass with this name. -/
def ofLabel? (label : String) : Option Pass := all.find? fun pass => pass.label = label

/-- Run a pass over a chapter. -/
def apply (pass : Pass) (config : Config) (ctx : Context) (f : Fragment) :
    Fragment × Report :=
  match pass with
  | .equationNumbers => numberEquations config.numbering ctx f
  | .equationRefs => renderEquationRefs ctx f
  | .textRefs => renderTextRefs ctx f
  | .linkTargets => retargetLinks config.equationTargets ctx f

/-- The passes that the settings leave on. -/
def enabled (config : Config) : List Pass :=
  all.filter fun pass => !config.disables pass.label

/-- Run passes one after the other over the same tree. -/
def applyAll (config : Config) (ctx : Context) :
    List Pass → Fragment → Fragment × Report
  | [], f => (f, .empty)
  | pass :: rest, f =>
    let (f, report) := pass.apply config ctx f
    let (f, more) := applyAll config ctx rest f
    (f, report.merge more)

/-- Passes run in two parts are passes run in one. -/
theorem applyAll_append (config : Config) (ctx : Context) (passes more : List Pass)
    (f : Fragment) :
    applyAll config ctx (passes ++ more) f =
      ((applyAll config ctx more (applyAll config ctx passes f).1).1,
        (applyAll config ctx passes f).2.merge
          (applyAll config ctx more (applyAll config ctx passes f).1).2) := by
  induction passes generalizing f with
  | nil => simp [applyAll]
  | cons pass rest ih => simp [applyAll, ih, Report.merge_assoc]

end Pass
end CrossRef
