import CrossRef.Index.Section
import CrossRef.Index.Equation

/-!
The index of a document: the sections and equations of its chapters. A look-up on behalf of a
chapter tries that chapter first and then the others in their order.
-/
namespace CrossRef
namespace Index

open Markup

structure IndexedChapter where
  id : String
  sections : ChapterSections
  equations : ChapterEquations
  deriving DecidableEq, Repr, Inhabited

/-- The chapters in the order in which they were first put in. -/
structure DocumentIndex where
  chapters : List IndexedChapter
  deriving DecidableEq, Repr, Inhabited

namespace DocumentIndex

def empty : DocumentIndex := ⟨[]⟩

def insertInto (new : IndexedChapter) : List IndexedChapter → List IndexedChapter
  | [] => [new]
  | chapter :: rest =>
    if chapter.id = new.id then new :: rest else chapter :: insertInto new rest

/-- Put in a chapter. One that is there already is replaced where it stands. -/
def insert (index : DocumentIndex) (id : String) (sections : ChapterSections)
    (equations : ChapterEquations) : DocumentIndex :=
  ⟨insertInto ⟨id, sections, equations⟩ index.chapters⟩

def chapterIds (index : DocumentIndex) : List String := index.chapters.map (·.id)

def chapter? (index : DocumentIndex) (id : String) : Option IndexedChapter :=
  index.chapters.find? fun chapter => chapter.id = id

def contains (index : DocumentIndex) (id : String) : Bool := (index.chapter? id).isSome

/-- What was put in is found, and nothing else is changed. -/
theorem chapter?_insert (index : DocumentIndex) (id : String) (sections : ChapterSections)
    (equations : ChapterEquations) (other : String) :
    (index.insert id sections equations).chapter? other =
      if other = id then some ⟨id, sections, equations⟩ else index.chapter? other := by
  obtain ⟨chapters⟩ := index
  simp only [insert, chapter?]
  induction chapters with
  | nil => by_cases h : id = other <;> simp [insertInto, h, eq_comm]
  | cons chapter rest ih =>
    simp only [insertInto]
    split
    · next h => by_cases ho : id = other <;> simp [h, ho, eq_comm]
    · next h =>
      simp only [List.find?_cons]
      by_cases ho : chapter.id = other
      · have : other ≠ id := fun he => h (ho.trans he)
        simp [ho, this]
      · simpa [ho] using ih

def sections? (index : DocumentIndex) (id : String) : Option ChapterSections :=
  (index.chapter? id).map (·.sections)

def equations? (index : DocumentIndex) (id : String) : Option ChapterEquations :=
  (index.chapter? id).map (·.equations)

/-- The chapters to search on behalf of one: itself, and then the others. -/
def searchOrder (index : DocumentIndex) (current : String) : List IndexedChapter :=
  (index.chapter? current).toList ++ index.chapters.filter fun chapter => chapter.id ≠ current

def findSection? (index : DocumentIndex) (current identifier : String) : Option SectionEntry :=
  (index.searchOrder current).findSome? fun chapter => chapter.sections.get? identifier

def findEquation? (index : DocumentIndex) (current identifier : String) : Option EquationEntry :=
  (index.searchOrder current).findSome? fun chapter => chapter.equations.get? identifier

def totalHeadings (index : DocumentIndex) : Nat :=
  index.chapters.foldl (fun n chapter => n + chapter.sections.headings.length) 0

def totalEquations (index : DocumentIndex) : Nat :=
  index.chapters.foldl (fun n chapter => n + chapter.equations.size) 0

/-- Read a chapter and put it in. -/
def insertChapter (index : DocumentIndex) (chapter : Chapter) (f : Fragment)
    (numbering : Numbering) : DocumentIndex :=
  index.insert chapter.id (sectionsOf chapter f) (equationsOf chapter f numbering)

end DocumentIndex
end Index

/-- The texts of the chapters that have one, by chapter id. -/
abbrev Sources := String → Option String

/-- The index of all chapters that have a text. -/
def Index.buildIndex (manifest : Manifest) (sources : Sources) (numbering : Numbering) :
    DocumentIndex :=
  manifest.chapters.foldl (fun index chapter =>
    match sources chapter.id with
    | some html => index.insertChapter chapter (Markup.Fragment.parse html) numbering
    | none => index) .empty

end CrossRef
