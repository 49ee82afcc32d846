import CrossRef.Pass.Registry

/-!
Resolution: every chapter of a document with its references made to say what they lead to.
-/
namespace CrossRef

open Markup Index

/-- A chapter after the passes. -/
structure ProcessedChapter where
  html : String
  report : Pass.Report
  deriving DecidableEq, Repr, Inhabited

/-- Run passes over the text of a chapter. A text in which nothing was changed is returned as it
was given. -/
def processChapter (config : Config) (ctx : Pass.Context) (passes : List Pass)
    (content : String) : ProcessedChapter :=
  let (f, report) := Pass.applyAll config ctx passes (Fragment.parse content)
  ⟨if report.changed = 0 then content else f.html, report⟩

/-- The chapters that have a text, in the order of the manifest. -/
def presentChapters (manifest : Manifest) (sources : Sources) : List (Chapter × String) :=
  manifest.chapters.filterMap fun chapter =>
    (sources chapter.id).map fun content => (chapter, content)

/-- Index all chapters, and send each through the passes that the settings leave on. -/
def resolveDocument (manifest : Manifest) (sources : Sources) (config : Config) :
    List (String × ProcessedChapter) :=
  let index := buildIndex manifest sources config.numbering
  (presentChapters manifest sources).map fun (chapter, content) =>
    (chapter.id,
      processChapter config ⟨manifest, index, chapter.id⟩ (Pass.enabled config) content)

end CrossRef
