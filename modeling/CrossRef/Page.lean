import CrossRef.Manifest.Basic
import CrossRef.Text.Blank
import CrossRef.Text.Search

/-!
Pages: the content of a chapter cut out of its source, the page around it with links to the chapters
next to it, and the index page with the table of contents.
-/
namespace CrossRef
namespace Page

open Text

def headerEnd : List Char := "</header>".toList

def bodyEnd : List Char := "</body>".toList

/-- The text between the first end of a header and the first end of a body after it, without blanks
around it. A source without that frame is taken whole. -/
def extractContent (html : String) : String :=
  match splitFirst? headerEnd html.toList with
  | none => html
  | some (_, afterHeader) =>
    match splitFirst? bodyEnd afterHeader with
    | none => html
    | some (content, _) => String.ofList (trimChars content)

/-- The templates that exist. In their texts, names in double braces mark what is put in. -/
structure Templates where
  header : Option String
  footer : Option String
  index : Option String
  deriving DecidableEq, Repr, Inhabited

def titleMark : String := "\x7b\x7btitle\x7d\x7d"

def numberMark : String := "\x7b\x7bdataChapter\x7d\x7d"

def previousMark : String := "\x7b\x7bprevLink\x7d\x7d"

def nextMark : String := "\x7b\x7bnextLink\x7d\x7d"

def contentsMark : String := "\x7b\x7bTOC\x7d\x7d"

/-- What a link to a chapter says. -/
def linkLabel (chapter : Chapter) : String :=
  match chapter.number with
  | some number => number.shownBeforeTitle ++ " " ++ chapter.title
  | none => chapter.title

def previousLink (chapter : Chapter) : String :=
  "<a href=\"" ++ chapter.fileName ++ "\" class=\"nav-link nav-prev\">← " ++ linkLabel chapter ++
    "</a>"

def nextLink (chapter : Chapter) : String :=
  "<a href=\"" ++ chapter.fileName ++ "\" class=\"nav-link nav-next\">" ++ linkLabel chapter ++
    " →</a>"

/-- The text of an optional value; nothing when there is none. -/
def textOr (f : α → String) (value : Option α) : String := (value.map f).getD ""

/-- The page of a chapter. Without a header and a footer it is the content alone. -/
def renderChapter (templates : Templates) (manifest : Manifest) (chapter : Chapter)
    (content : String) : String :=
  if templates.header.isNone && templates.footer.isNone then content
  else
    let header :=
      replaceAll numberMark (textOr ChapterNumber.shown chapter.number)
        (replaceAll titleMark chapter.title (templates.header.getD ""))
    let footer := match templates.footer with
      | none => ""
      | some footer =>
        let (previous, next) := manifest.neighbours chapter.id
        "\n" ++ replaceFirst nextMark (textOr nextLink next)
          (replaceFirst previousMark (textOr previousLink previous) footer)
    header ++ "\n" ++ content ++ "\n" ++ footer

def listOpening : String := "        <ul class=\"chapter-list\">\n"

def listClosing : String := "        </ul>\n"

def groupHeading (group : ChapterGroup) : String :=
  match group.heading? with
  | some heading => "        <p class=\"section-header\">" ++ heading ++ "</p>\n"
  | none => ""

def numberSpan (number : ChapterNumber) : String :=
  "<span class=\"chapter-number\">" ++ number.shown ++ ".</span> "

/-- The line of a chapter in the table of contents. -/
def contentsLine (chapter : Chapter) : String :=
  "            <li><a href=\"chapters/" ++ chapter.fileName ++ "\">" ++
    textOr numberSpan chapter.number ++ chapter.title ++ "</a></li>\n"

/-- The rest of the table of contents, after a chapter of the given group. -/
def contentsFrom : Option ChapterGroup → List Chapter → String
  | none, [] => ""
  | some _, [] => listClosing
  | current, chapter :: rest =>
    (if current = some chapter.group then ""
      else (if current.isSome then listClosing ++ "\n" else "") ++ groupHeading chapter.group ++
        listOpening) ++
      contentsLine chapter ++ contentsFrom (some chapter.group) rest

/-- The chapters as lists, one for each run of chapters of the same group. -/
def tableOfContents (manifest : Manifest) : String := contentsFrom none manifest.chapters

/-- The index page, if there is a template for it. -/
def renderIndex? (templates : Templates) (manifest : Manifest) : Option String :=
  templates.index.map fun template => replaceFirst contentsMark (tableOfContents manifest) template

end Page
end CrossRef
