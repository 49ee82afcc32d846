import CrossRef.Index.Equation
import CrossRef.Text.Word
import CrossRef.Index.Section

/-!
References: what kind of thing a link points to, and what its text says about it.
-/
namespace CrossRef
namespace Pass

open Markup Index

/-- What the target of a local link names. -/
inductive LinkTarget
  /-- A chapter, by the part after the mark. -/
  | chapter (reference : String)
  | equation (identifier : String)
  | heading (identifier : String)
  /-- A footnote, a source or a figure, or nothing at all. -/
  | excluded
  deriving DecidableEq, Repr, Inhabited

def chapterMark : List Char := "ch:".toList

/-- What marks an entry of a table of contents, as its own identifier or as its target. -/
def contentsMark : List Char := "toc-".toList

def excludedMarks : List (List Char) := ["fn".toList, "ref-".toList, "fig:".toList]

def startsWith (mark : List Char) (s : String) : Bool := mark.isPrefixOf s.toList

/-- The kind of a link target. -/
def classify (target : String) : LinkTarget :=
  if target = "" || excludedMarks.any (startsWith · target) then .excluded
  else if startsWith chapterMark target then
    .chapter (String.ofList (target.toList.drop chapterMark.length))
  else if isEquationIdentifier target then .equation target
  else .heading target

/-- Is the link itself an entry of a table of contents? -/
def isContentsEntry (dom : Dom) (link : NodeId) : Bool :=
  (dom.attribute? (some link) "id").any (startsWith contentsMark)

/-- The text of a reference to an equation. -/
def equationLabel (entry : EquationEntry) (otherChapter : Bool) : String :=
  "Eq. " ++ entry.number ++ if otherChapter then " (Ch. " ++ entry.chapterNumber ++ ")" else ""

/-- The text inside brackets, if the whole text is in brackets. -/
def unbracket? : List Char → Option (List Char)
  | '[' :: rest => if rest.getLast? = some ']' then some rest.dropLast else none
  | _ => none

/-- The new text of a link to an equation. It keeps its brackets if they hold nothing but the
identifier or the label. -/
def equationText (text identifier : String) (entry : EquationEntry) (otherChapter : Bool) :
    String :=
  let label := equationLabel entry otherChapter
  match unbracket? text.toList with
  | some inner =>
    if inner = identifier.toList || inner = label.toList then "[" ++ label ++ "]" else label
  | none => label

/-- The new text of a link to a heading. -/
def sectionText (entry : SectionEntry) (otherChapter : Bool) : String :=
  "Sec. " ++ entry.number ++ if otherChapter then " (" ++ entry.chapterTitle ++ ")" else ""

/-- What stands for a chapter in running text: its number, or its title if it has none. -/
def chapterName (chapter : Chapter) : String := chapter.shownNumber?.getD chapter.title

/-- Longer names come first, and equally long ones in the order of their characters. -/
def nameBefore (s t : String) : Bool :=
  t.utf8ByteSize < s.utf8ByteSize || (s.utf8ByteSize = t.utf8ByteSize && s ≤ t)

/-- Take out what equals its neighbour. -/
def dropRepeats : List String → List String
  | [] => []
  | [s] => [s]
  | s :: t :: rest => if s = t then dropRepeats (t :: rest) else s :: dropRepeats (t :: rest)

/-- The names that a text may use for a chapter, in the order in which they are tried. -/
def chapterNames (reference : String) (chapter : Chapter) : List String :=
  dropRepeats <|
    ((reference :: chapter.id :: chapter.refId.toList).filter (· ≠ "")).mergeSort nameBefore

/-- The new text of a link to a chapter, if the text names the chapter. A text that is a name of the
chapter and nothing else is replaced, otherwise the first name that stands in it as a word. -/
def chapterText (text reference : String) (chapter : Chapter) : Option String :=
  let names := chapterNames reference chapter
  let new := chapterName chapter
  let bare := Text.lowercase (Text.trim text)
  if names.any fun name => Text.lowercase name = bare then some new
  else if names.isEmpty then some (new ++ text)
  else (Text.cutAtWord? names text).map fun cut =>
    String.ofList (cut.before ++ new.toList ++ cut.after)

end Pass
end CrossRef
