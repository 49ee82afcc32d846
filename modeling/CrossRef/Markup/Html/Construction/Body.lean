import CrossRef.Markup.Html.Construction.Formatting

/-!
Tags in the body of the document, and inside MathML and SVG.
-/
namespace CrossRef
namespace Markup
namespace Html
namespace Construction

/-- Start tags of metadata, text and templates, which are treated alike wherever they stand. -/
def openMetadata (c : Construction) (tag : Tag) : Construction × Next :=
  match tag.label with
  | "title" => c.openText tag (.escapable tag.label)
  | "noframes" | "style" => c.openText tag (.raw tag.label)
  | "script" => c.openText tag .script
  | "template" =>
    (({ c.pushMarker with
        mode := .inTemplate
        templateModes := .inTemplate :: c.templateModes }).openTag tag, .done)
  | _ => (c.insertVoid tag, .done)

def isMetadata (label : String) : Bool :=
  ["base", "basefont", "bgsound", "link", "meta", "noframes", "script", "style", "template",
    "title"].contains label

def closeTemplate (c : Construction) : Construction :=
  if c.hasTemplate then
    let c := ((c.popWhile hasImpliedEndInTemplate).popThroughNamed "template").clearFormatting
    { c with templateModes := c.templateModes.tail }.resetMode
  else c

/-- Give an open element the attributes it lacks. -/
def mergeAttributes (c : Construction) (element? : Option OpenElement) (tag : Tag) :
    Construction :=
  match element? with
  | some e =>
    if c.hasTemplate then c
    else { c with dom := c.dom.addMissingAttributes (some e.node) (tag.attributesIn .html) }
  | none => c

/-- The open body element, which stands directly inside the root. -/
def body? (c : Construction) : Option OpenElement :=
  match c.opened.reverse with
  | _ :: e :: _ => if isHtmlNamed "body" e.name then some e else none
  | _ => none

/-- Close the item that a new item of a list ends, looking outward from the current node. -/
def closeItem (c : Construction) (labels : List String) : Construction :=
  let inner := c.opened.takeWhile fun e =>
    !isHtmlAmong labels e.name && !endsItemSearch e.name
  match (c.opened.drop inner.length).head? with
  | some e =>
    if isHtmlAmong labels e.name then
      (c.closeImpliedExcept e.name.label).popThroughNamed e.name.label
    else c
  | none => c

/-- A MathML or SVG element, without the link to what is inside it if the tag closes itself. -/
def openForeign (c : Construction) (vocabulary : Vocabulary) (tag : Tag) : Construction :=
  let name := ⟨vocabulary, foreignElementLabel vocabulary tag.label⟩
  let attributes := tag.attributesIn vocabulary
  if tag.isSelfClosing then (c.insertClosed name attributes).1 else (c.insertOpen name attributes).1

def isHiddenInput (tag : Tag) : Bool :=
  (tag.attribute? "type").any fun value => Text.equalIgnoringAsciiCase value "hidden"

/-- A start tag in the body. -/
def openInBody (c : Construction) (tag : Tag) : Construction × Next :=
  let done (c : Construction) : Construction × Next := (c, .done)
  if isMetadata tag.label then c.openMetadata tag
  else match tag.label with
  | "html" => done (c.mergeAttributes c.opened.getLast? tag)
  | "body" => done (c.mergeAttributes c.body? tag)
  | "frameset" | "caption" | "col" | "colgroup" | "frame" | "head" | "tbody" | "td" | "tfoot"
  | "th" | "thead" | "tr" => done c
  | "address" | "article" | "aside" | "blockquote" | "center" | "details" | "dialog" | "dir"
  | "div" | "dl" | "fieldset" | "figcaption" | "figure" | "footer" | "header" | "hgroup" | "main"
  | "menu" | "nav" | "ol" | "p" | "search" | "section" | "summary" | "ul" =>
    done (c.closeParagraphInScope.openTag tag)
  | "h1" | "h2" | "h3" | "h4" | "h5" | "h6" =>
    let c := c.closeParagraphInScope
    let c := if c.currentIs isHeading then c.pop else c
    done (c.openTag tag)
  | "pre" | "listing" =>
    done { c.closeParagraphInScope.openTag tag with skipsNewline := true }
  | "form" =>
    if c.form.isSome && !c.hasTemplate then done c
    else
      let (c, node) := c.closeParagraphInScope.insertOpen (.html tag.label) (tag.attributesIn .html)
      done (if c.hasTemplate then c else { c with form := some node })
  | "li" => done ((c.closeItem ["li"]).closeParagraphInScope.openTag tag)
  | "dd" | "dt" => done ((c.closeItem ["dd", "dt"]).closeParagraphInScope.openTag tag)
  | "plaintext" => (c.closeParagraphInScope.openTag tag, .read .plain)
  | "button" =>
    let c := if c.hasInScope "button" then c.closeImplied.popThroughNamed "button" else c
    done (c.reconstruct.openTag tag)
  | "a" => done (c.closeOuterLink.reconstruct.openFormatting tag)
  | "b" | "big" | "code" | "em" | "font" | "i" | "s" | "small" | "strike" | "strong" | "tt"
  | "u" => done (c.reconstruct.openFormatting tag)
  | "nobr" =>
    let c := c.reconstruct
    let c := if c.hasInScope "nobr" then (c.closeFormatting "nobr").reconstruct else c
    done (c.openFormatting tag)
  | "applet" | "marquee" | "object" => done (c.reconstruct.openTag tag).pushMarker
  | "table" => done { c.closeParagraphInScope.openTag tag with mode := .inTable }
  | "area" | "br" | "embed" | "img" | "keygen" | "wbr" => done (c.reconstruct.insertVoid tag)
  | "input" =>
    let c := if c.hasInScope "select" then c.popThroughNamed "select" else c
    done (c.reconstruct.insertVoid tag)
  | "param" | "source" | "track" => done (c.insertVoid tag)
  | "hr" =>
    let c := c.closeParagraphInScope
    let c := if c.hasInScope "select" then c.closeImplied else c
    done (c.insertVoid tag)
  | "image" => done (c.reconstruct.insertVoid { tag with label := "img" })
  | "textarea" => { c with skipsNewline := true }.openText tag (.escapable tag.label)
  | "xmp" => c.closeParagraphInScope.reconstruct.openText tag (.raw tag.label)
  | "iframe" | "noembed" | "noscript" => c.openText tag (.raw tag.label)
  | "select" =>
    if c.hasInScope "select" then done (c.popThroughNamed "select")
    else done (c.reconstruct.openTag tag)
  | "option" =>
    let c :=
      if c.hasInScope "select" then c.closeImpliedExcept "optgroup"
      else if c.currentIs (isHtmlNamed "option") then c.pop else c
    done (c.reconstruct.openTag tag)
  | "optgroup" =>
    let c :=
      if c.hasInScope "select" then c.closeImplied
      else if c.currentIs (isHtmlNamed "option") then c.pop else c
    done (c.reconstruct.openTag tag)
  | "rb" | "rtc" => done ((if c.hasInScope "ruby" then c.closeImplied else c).openTag tag)
  | "rp" | "rt" =>
    done ((if c.hasInScope "ruby" then c.closeImpliedExcept "rtc" else c).openTag tag)
  | "math" => done (c.openForeign .mathml tag)
  | "svg" => done (c.openForeign .svg tag)
  | _ => done (c.reconstruct.openTag tag)

/-- Close the innermost element of this name, with what is open inside it. -/
def closeNamed (c : Construction) (label : String) : Construction :=
  if c.hasInScope label then c.closeImplied.popThroughNamed label else c

def closeForm (c : Construction) : Construction :=
  if c.hasTemplate then c.closeNamed "form"
  else match c.form with
    | none => c
    | some node =>
      let c := { c with form := none }
      if inScope endsScope (fun e => e.node = node) c.opened then c.closeImplied.removeOpen node
      else c

/-- An end tag in the body. -/
def closeInBody (c : Construction) (tag : Tag) : Construction × Next :=
  let done (c : Construction) : Construction × Next := (c, .done)
  match tag.label with
  | "template" => done c.closeTemplate
  | "body" => done (if c.hasInScope "body" then { c with mode := .afterBody } else c)
  | "html" =>
    if c.hasInScope "body" then ({ c with mode := .afterBody }, .again (.closing tag)) else done c
  | "address" | "article" | "aside" | "blockquote" | "button" | "center" | "details" | "dialog"
  | "dir" | "div" | "dl" | "fieldset" | "figcaption" | "figure" | "footer" | "header" | "hgroup"
  | "listing" | "main" | "menu" | "nav" | "ol" | "pre" | "search" | "section" | "select"
  | "summary" | "ul" => done (c.closeNamed tag.label)
  | "form" => done c.closeForm
  | "p" =>
    let c := if c.hasInScopeOf endsButtonScope "p" then c else c.openBare "p"
    done c.closeParagraph
  | "li" =>
    done <|
      if c.hasInScopeOf endsListScope "li" then
        (c.closeImpliedExcept "li").popThroughNamed "li"
      else c
  | "dd" | "dt" =>
    done <|
      if c.hasInScope tag.label then
        (c.closeImpliedExcept tag.label).popThroughNamed tag.label
      else c
  | "h1" | "h2" | "h3" | "h4" | "h5" | "h6" =>
    done <|
      if inScope endsScope (fun e => isHeading e.name) c.opened then
        c.closeImplied.popThrough isHeading
      else c
  | "a" | "b" | "big" | "code" | "em" | "font" | "i" | "nobr" | "s" | "small" | "strike"
  | "strong" | "tt" | "u" => done (c.closeFormatting tag.label)
  | "applet" | "marquee" | "object" =>
    done (if c.hasInScope tag.label then (c.closeNamed tag.label).clearFormatting else c)
  | "br" => c.openInBody (.bare "br")
  | _ => done (c.closeOrdinary tag.label)

/-- A token in the body. -/
def inBody (c : Construction) : Token → Construction × Next
  | .opening tag => c.openInBody tag
  | .closing tag => c.closeInBody tag
  | .comment text => (c.insertComment text, .done)
  | .text chars => (c.reconstruct.insertText chars, .done)
  | .null => (c, .done)
  | .doctype => (c, .done)

end Construction
end Html
end Markup
end CrossRef
