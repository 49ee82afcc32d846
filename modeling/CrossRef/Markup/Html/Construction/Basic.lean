import CrossRef.Markup.Dom.Placement
import CrossRef.Markup.Html.Foreign

/-!
The state of tree construction: the arena built so far, the stack of open elements with the
innermost first, and the list of formatting elements with the latest first. Here are the steps that
all insertion modes share.
-/
namespace CrossRef
namespace Markup
namespace Html

structure OpenElement where
  node : NodeId
  name : Name
  deriving DecidableEq, Repr, Inhabited

/-- An open formatting element with the tag that can open it again, or a marker that closes off
what came before. -/
inductive FormattingEntry
  | marker
  | element (node : NodeId) (tag : Tag)
  deriving DecidableEq, Repr, Inhabited

def FormattingEntry.isAt (node : NodeId) : FormattingEntry → Bool
  | .marker => false
  | .element n _ => n = node

inductive InsertionMode
  | inBody
  | text
  | inTable
  | inTableText
  | inCaption
  | inColumnGroup
  | inTableBody
  | inRow
  | inCell
  | inTemplate
  | afterBody
  | afterAfterBody
  deriving DecidableEq, Repr, Inhabited

structure Construction where
  dom : Dom
  opened : List OpenElement
  formatting : List FormattingEntry
  mode : InsertionMode
  /-- The mode to go back to after text. -/
  returnMode : InsertionMode
  templateModes : List InsertionMode
  form : Option NodeId
  /-- While set, content that a table cannot hold is placed outside it. -/
  isFostering : Bool
  /-- Text met in a table, not yet placed. -/
  tableText : List Char
  /-- A line feed directly after certain start tags is dropped. -/
  skipsNewline : Bool
  deriving Repr, Inhabited

/-- What follows the handling of a token. -/
inductive Next
  | done
  /-- Handle this token in the mode that holds now. -/
  | again (token : Token)
  /-- Read what follows in this mode. -/
  | read (mode : ReadingMode)
  deriving DecidableEq, Repr, Inhabited

/-- Where material goes: into a node, or outside the table it was met in. -/
inductive Place
  | inside (node : NodeId)
  | outside (table below : NodeId)
  deriving DecidableEq, Repr, Inhabited

/-- Does a look outward meet the target before it meets the end of the scope? -/
def inScope (ends : Name → Bool) (target : OpenElement → Bool) : List OpenElement → Bool
  | [] => false
  | e :: outer => target e || (!ends e.name && inScope ends target outer)

/-- The place outside the innermost table, or inside the innermost template if that comes first. -/
def fosterPlace : List OpenElement → Place
  | [] => .inside Dom.document
  | [e] => .inside e.node
  | e :: below :: outer =>
    if isHtmlNamed "template" e.name then .inside e.node
    else if isHtmlNamed "table" e.name then .outside e.node below.node
    else fosterPlace (below :: outer)

namespace Construction

def current? (c : Construction) : Option OpenElement := c.opened.head?

/-- Does the current node have the property? -/
def currentIs (c : Construction) (p : Name → Bool) : Bool := c.current?.any fun e => p e.name

def hasInScope (c : Construction) (label : String) : Bool :=
  inScope endsScope (fun e => isHtmlNamed label e.name) c.opened

def hasInScopeOf (c : Construction) (ends : Name → Bool) (label : String) : Bool :=
  inScope ends (fun e => isHtmlNamed label e.name) c.opened

def hasTemplate (c : Construction) : Bool :=
  c.opened.any fun e => isHtmlNamed "template" e.name

def placeFor (c : Construction) (target : OpenElement) : Place :=
  if c.isFostering && isTableFrame target.name then fosterPlace c.opened else .inside target.node

/-- The place for new material at the current node. -/
def currentPlace (c : Construction) : Place :=
  match c.current? with
  | some e => c.placeFor e
  | none => .inside Dom.document

def placeAt (c : Construction) (place : Place) (material : Material) : Construction :=
  match place with
  | .inside node => { c with dom := c.dom.place (some node) material }
  | .outside table below =>
    { c with dom := c.dom.placeOutside (some table) (some below) material }

def insertText (c : Construction) (chars : List Char) : Construction :=
  c.placeAt c.currentPlace (.text (String.ofList chars))

def insertComment (c : Construction) (text : String) : Construction :=
  let (dom, i) := c.dom.create (.comment text)
  { c with dom := dom }.placeAt c.currentPlace (.node (some i))

/-- Make an element and place it, without opening it. -/
def insertClosed (c : Construction) (name : Name) (attributes : List Attribute) :
    Construction × NodeId :=
  let (dom, i) := c.dom.create (.element name attributes)
  ({ c with dom := dom }.placeAt c.currentPlace (.node (some i)), i)

/-- Make an element, place it and open it. -/
def insertOpen (c : Construction) (name : Name) (attributes : List Attribute) :
    Construction × NodeId :=
  let (c, i) := c.insertClosed name attributes
  ({ c with opened := ⟨i, name⟩ :: c.opened }, i)

def openTag (c : Construction) (tag : Tag) : Construction :=
  (c.insertOpen (.html tag.label) (tag.attributesIn .html)).1

def openBare (c : Construction) (label : String) : Construction := c.openTag (.bare label)

/-- An element without content. -/
def insertVoid (c : Construction) (tag : Tag) : Construction :=
  (c.insertClosed (.html tag.label) (tag.attributesIn .html)).1

/-- Close the innermost element. -/
def pop (c : Construction) : Construction := { c with opened := c.opened.tail }

/-- Close elements while they have the property. -/
def popWhile (c : Construction) (p : Name → Bool) : Construction :=
  { c with opened := c.opened.dropWhile fun e => p e.name }

/-- Close elements up to and with the first that has the property. -/
def popThrough (c : Construction) (p : Name → Bool) : Construction :=
  (c.popWhile fun name => !p name).pop

def popThroughNamed (c : Construction) (label : String) : Construction :=
  c.popThrough (isHtmlNamed label)

/-- Close elements down to the first that has the property. -/
def popTo (c : Construction) (p : Name → Bool) : Construction := c.popWhile fun name => !p name

/-- Take an element out of the stack, wherever it stands. -/
def removeOpen (c : Construction) (node : NodeId) : Construction :=
  { c with opened := c.opened.filter fun e => e.node ≠ node }

def closeImplied (c : Construction) : Construction := c.popWhile hasImpliedEnd

/-- Close the elements whose end tags may be left out, but none of this name. -/
def closeImpliedExcept (c : Construction) (label : String) : Construction :=
  c.popWhile fun name => hasImpliedEnd name && !isHtmlNamed label name

def closeParagraph (c : Construction) : Construction :=
  (c.closeImpliedExcept "p").popThroughNamed "p"

/-- Close a paragraph that is open here. -/
def closeParagraphInScope (c : Construction) : Construction :=
  if c.hasInScopeOf endsButtonScope "p" then c.closeParagraph else c

/-- The mode that fits the open elements. -/
def fittingMode (templateModes : List InsertionMode) : List OpenElement → InsertionMode
  | [] => .inBody
  | e :: outer =>
    if e.name.vocabulary ≠ .html then fittingMode templateModes outer
    else match e.name.label with
      | "td" | "th" => .inCell
      | "tr" => .inRow
      | "tbody" | "thead" | "tfoot" => .inTableBody
      | "caption" => .inCaption
      | "colgroup" => .inColumnGroup
      | "table" => .inTable
      | "template" => templateModes.headD .inBody
      | "body" => .inBody
      | _ => fittingMode templateModes outer

def resetMode (c : Construction) : Construction :=
  { c with mode := fittingMode c.templateModes c.opened }

/-- Open an element whose content is text, and read that text. -/
def openText (c : Construction) (tag : Tag) (mode : ReadingMode) : Construction × Next :=
  ({ c.openTag tag with returnMode := c.mode, mode := .text }, .read mode)

end Construction
end Html
end Markup
end CrossRef
