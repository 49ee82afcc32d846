import CrossRef.Index.Document
import CrossRef.Json.Writer

/-!
Reports on an index: what it knows of each chapter. Chapters are listed in the order of their ids.
-/
namespace CrossRef
namespace Index

/-- The title of a chapter that the manifest does not know. -/
def unknownTitle : String := "Unknown"

def titleOf (manifest : Manifest) (id : String) : String :=
  ((manifest.findChapter? id).map (·.title)).getD unknownTitle

/-- The chapters in the order of their ids. -/
def DocumentIndex.sorted (index : DocumentIndex) : List IndexedChapter :=
  index.chapters.mergeSort fun c d => c.id ≤ d.id

/-- An object with a member for each chapter. -/
def chapterMembers (index : DocumentIndex) (value : IndexedChapter → Json) : Json :=
  .ofMembers (index.sorted.map fun chapter => (chapter.id, value chapter))

def SectionEntry.toJson (entry : SectionEntry) : Json :=
  .ofMembers
    [("identifiers", .ofTexts entry.identifiers), ("text", .text entry.text),
      ("level", .natural entry.level), ("chapterId", .text entry.chapterId),
      ("chapterTitle", .text entry.chapterTitle), ("sectionNumber", .text entry.number)]

def EquationEntry.toJson (entry : EquationEntry) : Json :=
  .ofMembers
    [("identifier", .text entry.identifier), ("equationNumber", .text entry.number),
      ("chapterId", .text entry.chapterId), ("chapterNumber", .text entry.chapterNumber)]

/-- The headings of each chapter as they are numbered. -/
def headerMapping (manifest : Manifest) (index : DocumentIndex) : Json :=
  chapterMembers index fun chapter =>
    .ofMembers
      [("chapterTitle", .text (titleOf manifest chapter.id)),
        ("headers", .array (chapter.sections.headings.map (·.toJson)))]

/-- The equations of each chapter that references can lead to. -/
def equationMapping (manifest : Manifest) (index : DocumentIndex) : Json :=
  chapterMembers index fun chapter =>
    .ofMembers
      [("chapterTitle", .text (titleOf manifest chapter.id)),
        ("numbered", .natural chapter.equations.numbered),
        ("equations", .array (chapter.equations.listed.map (·.toJson)))]

/-- An identifier with the heading that it leads to. -/
structure HeaderSummary where
  identifier : String
  text : String
  level : Nat
  deriving DecidableEq, Repr, Inhabited

/-- What the analysis says of a chapter. -/
structure ChapterAnalysis where
  chapterId : String
  chapterTitle : String
  totalHeaders : Nat
  totalEquations : Nat
  headers : List HeaderSummary
  deriving DecidableEq, Repr, Inhabited

/-- How many identifiers lead to headings of each level. -/
structure HeadersByLevel where
  second : Nat
  third : Nat
  fourth : Nat
  deriving DecidableEq, Repr, Inhabited

/-- What the analysis says of all chapters. -/
structure AnalysisSummary where
  totalHeaders : Nat
  totalChapters : Nat
  totalEquations : Nat
  byLevel : HeadersByLevel
  deriving DecidableEq, Repr, Inhabited

structure Analysis where
  summary : AnalysisSummary
  chapters : List ChapterAnalysis
  deriving DecidableEq, Repr, Inhabited

def HeadersByLevel.count (levels : HeadersByLevel) (level : Nat) : HeadersByLevel :=
  match level with
  | 2 => { levels with second := levels.second + 1 }
  | 3 => { levels with third := levels.third + 1 }
  | _ => { levels with fourth := levels.fourth + 1 }

def headersOf (sections : ChapterSections) : List HeaderSummary :=
  sections.headings.flatMap fun entry =>
    entry.identifiers.map fun identifier => ⟨identifier, entry.text, entry.level⟩

/-- Take one more chapter into the summary. -/
def AnalysisSummary.add (s : AnalysisSummary) (chapter : IndexedChapter) : AnalysisSummary :=
  let headers := headersOf chapter.sections
  { totalHeaders := s.totalHeaders + headers.length
    totalChapters := s.totalChapters + 1
    totalEquations := s.totalEquations + chapter.equations.size
    byLevel := headers.foldl (fun levels header => levels.count header.level) s.byLevel }

/-- Counts over the whole index, and a list of the headings of each chapter. -/
def analysis (manifest : Manifest) (index : DocumentIndex) : Analysis where
  summary := index.chapters.foldl AnalysisSummary.add ⟨0, 0, 0, ⟨0, 0, 0⟩⟩
  chapters := index.sorted.map fun chapter =>
    let headers := headersOf chapter.sections
    { chapterId := chapter.id
      chapterTitle := titleOf manifest chapter.id
      totalHeaders := headers.length
      totalEquations := chapter.equations.size
      headers := headers }

def AnalysisSummary.toJson (s : AnalysisSummary) : Json :=
  .ofMembers
    [("totalHeaders", .natural s.totalHeaders), ("totalChapters", .natural s.totalChapters),
      ("totalEquations", .natural s.totalEquations),
      ("headersByLevel", .ofMembers
        [("h2", .natural s.byLevel.second), ("h3", .natural s.byLevel.third),
          ("h4", .natural s.byLevel.fourth)])]

def HeaderSummary.toJson (header : HeaderSummary) : Json :=
  .ofMembers
    [("id", .text header.identifier), ("text", .text header.text), ("level", .natural header.level)]

def ChapterAnalysis.toJson (chapter : ChapterAnalysis) : Json :=
  .ofMembers
    [("chapterTitle", .text chapter.chapterTitle),
      ("totalHeaders", .natural chapter.totalHeaders),
      ("totalEquations", .natural chapter.totalEquations),
      ("headers", .array (chapter.headers.map (·.toJson)))]

/-- The members of an analysis. -/
def Analysis.members (a : Analysis) : List (String × Json) :=
  [("summary", a.summary.toJson),
    ("chapters", .ofMembers (a.chapters.map fun chapter => (chapter.chapterId, chapter.toJson)))]

end Index
end CrossRef
