import CrossRef.Markup.Html.Construction.Table
import CrossRef.Markup.Html.Token.Scan

/-!
Tree construction: each token is handled in the mode that holds, and some tokens change the mode and
are handled again.
-/
namespace CrossRef
namespace Markup
namespace Html
namespace Construction

/-- Take a template's content to be of the kind that this mode is for. -/
def enterTemplateContent (c : Construction) (mode : InsertionMode) (token : Token) :
    Construction × Next :=
  ({ c with mode := mode, templateModes := mode :: c.templateModes.tail }, .again token)

def inTemplate (c : Construction) (token : Token) : Construction × Next :=
  match token with
  | .opening tag =>
    if isMetadata tag.label then c.openMetadata tag
    else match tag.label with
      | "caption" | "colgroup" | "tbody" | "tfoot" | "thead" => c.enterTemplateContent .inTable token
      | "col" => c.enterTemplateContent .inColumnGroup token
      | "tr" => c.enterTemplateContent .inTableBody token
      | "td" | "th" => c.enterTemplateContent .inRow token
      | _ => c.enterTemplateContent .inBody token
  | .closing tag => if tag.label = "template" then (c.closeTemplate, .done) else (c, .done)
  | _ => c.inBody token

def inText (c : Construction) : Token → Construction × Next
  | .text chars => (c.insertText chars, .done)
  | .closing _ => ({ c.pop with mode := c.returnMode }, .done)
  | _ => (c, .done)

/-- A comment after the body goes to the root, and after the root to the document. -/
def insertOuterComment (c : Construction) (parent : NodeId) (text : String) : Construction :=
  let (dom, i) := c.dom.create (.comment text)
  { c with dom := dom.append (some parent) (some i) }

/-- After the body, blank text still goes into it and other content opens it again. -/
def afterBody (c : Construction) (token : Token) : Construction × Next :=
  let reopened := { c with mode := InsertionMode.inBody }
  match token with
  | .text chars =>
    let blank := chars.takeWhile isTextBlank
    let blankPlaced := if blank.isEmpty then c else (c.inBody (.text blank)).1
    match chars.drop blank.length with
    | [] => (blankPlaced, .done)
    | rest => ({ blankPlaced with mode := .inBody }, .again (.text rest))
  | .comment text =>
    let parent := match c.mode, c.opened.getLast? with
      | .afterBody, some root => root.node
      | _, _ => Dom.document
    (c.insertOuterComment parent text, .done)
  | .opening tag => if tag.label = "html" then c.inBody token else (reopened, .again token)
  | .closing tag =>
    if tag.label = "html" && c.mode = .afterBody then ({ c with mode := .afterAfterBody }, .done)
    else (reopened, .again token)
  | .null => (reopened, .again token)
  | .doctype => (c, .done)

/-- Handle a token in the mode that holds. -/
def inMode (c : Construction) (token : Token) : Construction × Next :=
  match c.mode with
  | .inBody => c.inBody token
  | .text => c.inText token
  | .inTable => c.inTable token
  | .inTableText => c.inTableText token
  | .inCaption => c.inCaption token
  | .inColumnGroup => c.inColumnGroup token
  | .inTableBody => c.inTableBody token
  | .inRow => c.inRow token
  | .inCell => c.inCell token
  | .inTemplate => c.inTemplate token
  | .afterBody => c.afterBody token
  | .afterAfterBody => c.afterBody token

/-- Does the token belong to the MathML or SVG element that is open? -/
def isForeign (c : Construction) (token : Token) : Bool :=
  match c.current? with
  | none => false
  | some e =>
    if e.name.vocabulary = .html then false
    else match token with
      | .opening tag =>
        if isMathTextPoint e.name then ["mglyph", "malignmark"].contains tag.label
        else if isSvgHtmlPoint e.name then false
        else !(e.name = ⟨.mathml, "annotation-xml"⟩ && tag.label = "svg")
      | .text _ | .null => !(isMathTextPoint e.name || isSvgHtmlPoint e.name)
      | _ => true

/-- Close foreign elements down to one that can hold HTML, and handle the tag there. -/
def leaveForeign (c : Construction) (token : Token) : Construction × Next :=
  (c.popTo fun name => name.vocabulary = .html || isMathTextPoint name || isSvgHtmlPoint name).inMode
    token

/-- The open elements outside the one that an end tag closes in foreign content, or nothing if HTML
is met first. The innermost element counts whatever it is. -/
def foreignClosed? (label : String) : Bool → List OpenElement → Option (List OpenElement)
  | _, [] => none
  | isFirst, e :: outer =>
    if !isFirst && e.name.vocabulary = .html then none
    else if outer.isEmpty then none
    else if Text.asciiLowercase e.name.label = label then some outer
    else foreignClosed? label false outer

def inForeign (c : Construction) (token : Token) : Construction × Next :=
  match token with
  | .opening tag =>
    if tag.leavesForeign then c.leaveForeign token
    else
      let vocabulary := (c.current?.map (·.name.vocabulary)).getD .html
      (c.openForeign vocabulary tag, .done)
  | .closing tag =>
    if tag.label = "br" || tag.label = "p" then c.leaveForeign token
    else match foreignClosed? tag.label true c.opened with
      | some outer => ({ c with opened := outer }, .done)
      | none => c.inMode token
  | .comment text => (c.insertComment text, .done)
  | .text chars => (c.insertText chars, .done)
  | .null => (c.insertText ['\ufffd'], .done)
  | .doctype => (c, .done)

/-- Handle a token, again and again while the handling asks for it. The answer is the mode in which
to read on, if it changes. -/
def handle (c : Construction) : Nat → Token → Construction × Option ReadingMode
  | 0, _ => (c, none)
  | fuel + 1, token =>
    match if c.isForeign token then c.inForeign token else c.inMode token with
    | (c, .done) => (c, none)
    | (c, .read mode) => (c, some mode)
    | (c, .again token) => handle c fuel token

/-- A token is handled again only where it opens or closes a part of a table on its way. -/
def handlingBound (c : Construction) : Nat :=
  2 * (c.opened.countP fun e => isTablePart e.name) + 16

/-- Handle one token of the text. -/
def feed (c : Construction) (token : Token) : Construction × Option ReadingMode :=
  let skips := c.skipsNewline
  let c := { c with skipsNewline := false }
  match token with
  | .doctype => (c, none)
  | .text chars =>
    match if skips then (if chars.head? = some '\n' then chars.tail else chars) else chars with
    | [] => (c, none)
    | chars => c.handle c.handlingBound (.text chars)
  | token => c.handle c.handlingBound token

/-- Inside foreign elements the text can hold character data sections. -/
def isInForeign (c : Construction) : Bool := c.currentIs fun name => name.vocabulary ≠ .html

/-- Read the text to its end. -/
def readAll : Nat → Construction → ReadingMode → List Char → Construction
  | 0, c, _, _ => c
  | _, c, _, [] => c
  | fuel + 1, c, mode, x :: rest =>
    let s := scan mode c.isInForeign (x :: rest)
    match s.token with
    | none => readAll fuel { c with skipsNewline := false } s.mode s.rest
    | some token =>
      let (c, mode?) := c.feed token
      readAll fuel c (mode?.getD s.mode) s.rest

/-- At the end of the text, what was collected in a table is placed. -/
def finish (c : Construction) : Construction :=
  match c.mode with
  | .inTableText => c.placeTableText
  | _ => c

/-- A document whose body is open and empty. -/
def start : Construction :=
  let dom := Dom.empty.placeDoctype "html"
  let (dom, html) := dom.create (.element (.html "html") [])
  let dom := dom.append (some Dom.document) (some html)
  let (dom, head) := dom.create (.element (.html "head") [])
  let dom := dom.append (some html) (some head)
  let (dom, body) := dom.create (.element (.html "body") [])
  let dom := dom.append (some html) (some body)
  { dom := dom
    opened := [⟨body, .html "body"⟩, ⟨html, .html "html"⟩]
    formatting := []
    mode := .inBody
    returnMode := .inBody
    templateModes := []
    form := none
    isFostering := false
    tableText := []
    skipsNewline := false }

/-- The document that a text makes when it stands in the body of a document. -/
def run (text : String) : Dom :=
  let chars := normalizeLines (text ++ "</body></html>").toList
  (readAll (chars.length + 1) start .markup chars).finish.dom

end Construction
end Html
end Markup
end CrossRef
