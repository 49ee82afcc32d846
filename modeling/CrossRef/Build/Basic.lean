import CrossRef.Files.Basic
import CrossRef.Manifest.Reader

/-!
What a build reports: an outcome for each chapter, so that one chapter that fails does not stop the
others, or a fault that stopped the build.
-/
namespace CrossRef
namespace Build

/-- Why a chapter was not written. -/
inductive ChapterFault
  | missing (path : Path)
  | unreadable (path : Path) (fault : FileFault)
  | unwritable (path : Path) (fault : FileFault)
  deriving DecidableEq, Repr, Inhabited

def ChapterFault.message : ChapterFault → String
  | missing path => "Chapter source not found: " ++ path.text
  | unreadable path fault =>
    "Failed to read chapter source " ++ path.text ++ ": " ++ fault.message
  | unwritable path fault => "Failed to write " ++ path.text ++ ": " ++ fault.message

/-- Why there was no build. -/
inductive BuildFault
  | manifestUnreadable (path : Path) (fault : FileFault)
  | manifestMalformed (path : Path)
  | duplicateChapter (id : String)
  | reportUnwritable (path : Path) (fault : FileFault)
  | templatesUnreadable (path : Path) (fault : FileFault)
  | outputUnwritable (path : Path) (fault : FileFault)
  deriving DecidableEq, Repr, Inhabited

namespace BuildFault

def message : BuildFault → String
  | manifestUnreadable path fault =>
    "Failed to read manifest at " ++ path.text ++ ": " ++ fault.message
  | manifestMalformed path => "Failed to parse manifest " ++ path.text
  | duplicateChapter id => (ManifestFault.duplicateId id).message
  | reportUnwritable path fault =>
    "Failed to write report " ++ path.text ++ ": " ++ fault.message
  | templatesUnreadable path fault =>
    "Failed to read templates from " ++ path.text ++ ": " ++ fault.message
  | outputUnwritable path fault => "Failed to write " ++ path.text ++ ": " ++ fault.message

/-- The fault of a file behind this one. -/
def cause? : BuildFault → Option FileFault
  | manifestUnreadable _ fault | reportUnwritable _ fault | templatesUnreadable _ fault
  | outputUnwritable _ fault => some fault
  | manifestMalformed _ | duplicateChapter _ => none

end BuildFault

/-- What became of a chapter. -/
structure ChapterOutcome where
  chapterId : String
  /-- Where its page is. -/
  output : Except ChapterFault Path
  changed : Nat
  unresolved : List String
  deriving Inhabited

/-- What a build did. -/
structure Summary where
  /-- One outcome for each chapter of the manifest, in its order. -/
  chapters : List ChapterOutcome
  indexPage : Option Path
  reports : List Path
  assetsCopied : Nat
  deriving Inhabited

namespace Summary

/-- The pages of the chapters that were written. -/
def written (summary : Summary) : List Path :=
  summary.chapters.filterMap fun chapter => chapter.output.toOption

/-- The chapters that were not written, with what went wrong. -/
def failures (summary : Summary) : List (String × ChapterFault) :=
  summary.chapters.filterMap fun chapter =>
    match chapter.output with
    | .ok _ => none
    | .error fault => some (chapter.chapterId, fault)

def unresolvedCount (summary : Summary) : Nat :=
  summary.chapters.foldl (fun n chapter => n + chapter.unresolved.length) 0

def isSuccess (summary : Summary) : Bool := summary.failures.isEmpty

end Summary
end Build
end CrossRef
