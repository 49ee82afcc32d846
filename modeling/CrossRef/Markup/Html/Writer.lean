import CrossRef.Markup.Event

/-!
HTML text from events. Text and attribute values are escaped, the content of raw text elements is
not, and the elements inside a void element are left out.
-/
namespace CrossRef
namespace Markup
namespace Html

/-- The elements that have no end tag and hold no elements. -/
def isVoid (label : String) : Bool :=
  ["area", "base", "basefont", "bgsound", "br", "col", "embed", "frame", "hr", "img", "input",
    "keygen", "link", "meta", "param", "source", "track", "wbr"].contains label

/-- The elements whose text is written as it is. -/
def isRawText (label : String) : Bool :=
  ["style", "script", "xmp", "iframe", "noembed", "noframes", "plaintext", "noscript"].contains
    label

def escapeTextChar (c : Char) : List Char :=
  if c = '&' then "&amp;".toList
  else if c = '\u00a0' then "&nbsp;".toList
  else if c = '<' then "&lt;".toList
  else if c = '>' then "&gt;".toList
  else [c]

def escapeValueChar (c : Char) : List Char :=
  if c = '"' then "&quot;".toList else escapeTextChar c

def escapeText (s : String) : String := String.ofList (s.toList.flatMap escapeTextChar)

def escapeValue (s : String) : String := String.ofList (s.toList.flatMap escapeValueChar)

/-- An attribute name with the spelling its vocabulary calls for. -/
def attributeLabel (name : Name) : String :=
  match name.vocabulary with
  | .plain => name.label
  | .xml => "xml:" ++ name.label
  | .xmlns => if name.label = "xmlns" then name.label else "xmlns:" ++ name.label
  | .xlink => "xlink:" ++ name.label
  | .html | .mathml | .svg => "unknown_namespace:" ++ name.label

def attributeText (a : Attribute) : String :=
  " " ++ attributeLabel a.name ++ "=\"" ++ escapeValue a.value ++ "\""

def startTag (name : Name) (attributes : List Attribute) : String :=
  "<" ++ name.label ++ String.join (attributes.map attributeText) ++ ">"

def endTag (name : Name) : String := "</" ++ name.label ++ ">"

/-- What the writer knows of an open element: its name if it is an HTML element, and whether the
elements inside it are left out. -/
structure Enclosing where
  label : Option String
  isSilent : Bool
  deriving DecidableEq, Repr, Inhabited

def Enclosing.outermost : Enclosing := ⟨none, false⟩

/-- The innermost open element. -/
def enclosing (outer : List Enclosing) : Enclosing := outer.headD .outermost

def htmlLabel (name : Name) : Option String :=
  if name.vocabulary = .html then some name.label else none

/-- The written pieces of a sequence of events, inside the given open elements. -/
def pieces : List Enclosing → List Event → List String
  | _, [] => []
  | outer, .opened name attributes :: rest =>
    if (enclosing outer).isSilent then pieces (⟨htmlLabel name, true⟩ :: outer) rest
    else
      startTag name attributes ::
        pieces (⟨htmlLabel name, (htmlLabel name).any isVoid⟩ :: outer) rest
  | outer, .closed name :: rest =>
    if (enclosing outer).isSilent then pieces outer.tail rest
    else endTag name :: pieces outer.tail rest
  | outer, .text text :: rest =>
    (if (enclosing outer).label.any isRawText then text else escapeText text) :: pieces outer rest
  | outer, .comment text :: rest => ("<!--" ++ text ++ "-->") :: pieces outer rest
  | outer, .doctype name :: rest => ("<!DOCTYPE " ++ name ++ ">") :: pieces outer rest

/-- The text of a sequence of events. -/
def write (events : List Event) : String := String.join (pieces [.outermost] events)

end Html

/-- The HTML text of a node with all that is below it. -/
def Dom.outerHtml (dom : Dom) (l : Link) : String := Html.write (dom.events l)

/-- The HTML text of what is below a node. -/
def Dom.innerHtml (dom : Dom) (l : Link) : String := Html.write (dom.innerEvents l)

end Markup
end CrossRef
