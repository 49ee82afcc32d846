import CrossRef.Markup.Html.Construction.Basic

/-!
Formatting elements. They are opened again where the text they format goes on, and an end tag that
stands across other elements splits them.
-/
namespace CrossRef
namespace Markup
namespace Html

/-- The entries after the latest marker. -/
def entriesToMarker (entries : List FormattingEntry) : List FormattingEntry :=
  entries.takeWhile fun entry => entry ≠ .marker

/-- Drop the entries down to and with the latest marker. -/
def clearToMarker (entries : List FormattingEntry) : List FormattingEntry :=
  (entries.dropWhile fun entry => entry ≠ .marker).tail

/-- The latest entry after the latest marker with this name. -/
def latestNamed? (label : String) (entries : List FormattingEntry) : Option (NodeId × Tag) :=
  (entriesToMarker entries).findSome? fun
    | .element node tag => if tag.label = label then some (node, tag) else none
    | .marker => none

def removeEntry (node : NodeId) (entries : List FormattingEntry) : List FormattingEntry :=
  entries.filter fun entry => !entry.isAt node

def replaceEntry (node : NodeId) (new : FormattingEntry) (entries : List FormattingEntry) :
    List FormattingEntry :=
  entries.map fun entry => if entry.isAt node then new else entry

/-- Put an entry directly after the one of this node. -/
def insertEntryAfter (node : NodeId) (new : FormattingEntry) :
    List FormattingEntry → List FormattingEntry
  | [] => []
  | entry :: rest =>
    if entry.isAt node then new :: entry :: rest else entry :: insertEntryAfter node new rest

/-- The same name and the same attributes in any order. -/
def Tag.isLike (s t : Tag) : Bool :=
  s.label = t.label && s.attributes.length = t.attributes.length &&
    s.attributes.all t.attributes.contains

/-- The node of the earliest of three or more like entries. -/
def earliestOfThree? (tag : Tag) (entries : List FormattingEntry) : Option NodeId :=
  let like := (entriesToMarker entries).filterMap fun
    | .element node t => if tag.isLike t then some node else none
    | .marker => none
  if 3 ≤ like.length then like.getLast? else none

namespace Construction

def isListed (c : Construction) (node : NodeId) : Bool := c.formatting.any (·.isAt node)

def isOpen (c : Construction) (node : NodeId) : Bool := c.opened.any (·.node = node)

def pushMarker (c : Construction) : Construction :=
  { c with formatting := .marker :: c.formatting }

def clearFormatting (c : Construction) : Construction :=
  { c with formatting := clearToMarker c.formatting }

/-- Open the given closed entries again, the earliest first, on top of the entries before them. -/
def reopen (c : Construction) (before : List FormattingEntry) :
    List FormattingEntry → Construction
  | [] => { c with formatting := before }
  | .marker :: rest => reopen c (.marker :: before) rest
  | .element _ tag :: rest =>
    let (c, node) := c.insertOpen (.html tag.label) (tag.attributesIn .html)
    reopen c (.element node tag :: before) rest

/-- Open the formatting elements again that were closed since the latest marker. -/
def reconstruct (c : Construction) : Construction :=
  let isClosed : FormattingEntry → Bool
    | .marker => false
    | .element node _ => !c.isOpen node
  let closed := c.formatting.takeWhile isClosed
  c.reopen (c.formatting.drop closed.length) closed.reverse

/-- Open a formatting element; of more than three like ones the earliest is forgotten. -/
def openFormatting (c : Construction) (tag : Tag) : Construction :=
  let c := match earliestOfThree? tag c.formatting with
    | some node => { c with formatting := removeEntry node c.formatting }
    | none => c
  let (c, node) := c.insertOpen (.html tag.label) (tag.attributesIn .html)
  { c with formatting := .element node tag :: c.formatting }

/-- The end tag of an element without rules of its own: it closes the innermost element of its
name, if no special element stands inside that. -/
def closeOrdinary (c : Construction) (label : String) : Construction :=
  let inner := c.opened.takeWhile fun e => !isHtmlNamed label e.name && !isSpecial e.name
  match c.opened.drop inner.length with
  | [] => c
  | e :: outer => if isHtmlNamed label e.name then { c with opened := outer } else c

/-- Move a node to the end of another, unless that other one lies inside it. -/
def moveInto (c : Construction) (place : Place) (node : NodeId) : Construction :=
  let goal := match place with
    | .inside parent => some parent
    | .outside table below => (c.dom.parent? (some table)).or (some below)
  if c.dom.contains (some node) goal then c
  else { c with dom := (c.dom.detach (some node)).append goal (some node) }

/-- What the split of a formatting element has done so far: the outermost node moved, the node
after whose entry the new entry goes, and the elements that stay open, innermost first. -/
structure Split where
  state : Construction
  last : NodeId
  bookmark : Option NodeId
  kept : List OpenElement

/-- Copy the formatting elements between the block and the element to split, each around the last;
at most three are copied, and other elements are closed. -/
def splitBetween (s : Split) : Nat → List OpenElement → Split
  | _, [] => s
  | count, e :: outer =>
    let c := s.state
    let tag? := c.formatting.findSome? fun
      | .element node tag => if node = e.node then some tag else none
      | .marker => none
    match tag? with
    | none => splitBetween s (count + 1) outer
    | some tag =>
      if 3 ≤ count then
        splitBetween { s with state := { c with formatting := removeEntry e.node c.formatting } }
          (count + 1) outer
      else
        let (dom, copy) := c.dom.create (.element (.html tag.label) (tag.attributesIn .html))
        let c := { c with
          dom := dom
          formatting := replaceEntry e.node (.element copy tag) c.formatting }
        let c := c.moveInto (.inside copy) s.last
        splitBetween
          { state := c
            last := copy
            bookmark := s.bookmark.or (some copy)
            kept := s.kept ++ [⟨copy, .html tag.label⟩] } (count + 1) outer

/-- Split the formatting element `node` around `block`. The open elements are `above`, `block`,
`between`, the element itself and `outer`, innermost first. -/
def splitAround (c : Construction) (node : NodeId) (tag : Tag) (above : List OpenElement)
    (block : OpenElement) (between outer : List OpenElement) : Construction :=
  let s := splitBetween ⟨c, block.node, none, []⟩ 0 between
  let c := s.state
  let goal := match outer.head? with
    | some e => c.placeFor e
    | none => .inside Dom.document
  let c := c.moveInto goal s.last
  let (dom, copy) := c.dom.create (.element (.html tag.label) (tag.attributesIn .html))
  let dom := dom.reparentChildren (some block.node) (some copy)
  let dom := dom.append (some block.node) (some copy)
  let entry : FormattingEntry := .element copy tag
  let formatting := match s.bookmark with
    | none => replaceEntry node entry c.formatting
    | some mark => removeEntry node (insertEntryAfter mark entry c.formatting)
  { c with
    dom := dom
    formatting := formatting
    opened := above ++ ⟨copy, .html tag.label⟩ :: block :: s.kept ++ outer }

/-- One round of closing a formatting element. The answer says whether another round follows. -/
def closeFormattingRound (c : Construction) (label : String) : Construction × Bool :=
  match latestNamed? label c.formatting with
  | none => (c.closeOrdinary label, false)
  | some (node, tag) =>
    let inner := c.opened.takeWhile fun e => e.node ≠ node
    match c.opened.drop inner.length with
    | [] => ({ c with formatting := removeEntry node c.formatting }, false)
    | _ :: outer =>
      if !inScope endsScope (fun e => e.node = node) c.opened then (c, false)
      else
        let between := (inner.reverse.takeWhile fun e => !isSpecial e.name).reverse
        match (inner.take (inner.length - between.length)).reverse with
        | [] =>
          ({ c with opened := outer, formatting := removeEntry node c.formatting }, false)
        | block :: above => (c.splitAround node tag above.reverse block between outer, true)

def closeFormattingRounds (c : Construction) (label : String) : Nat → Construction
  | 0 => c
  | n + 1 =>
    match c.closeFormattingRound label with
    | (c, true) => closeFormattingRounds c label n
    | (c, false) => c

/-- The end tag of a formatting element. -/
def closeFormatting (c : Construction) (label : String) : Construction :=
  match c.current? with
  | some e =>
    if isHtmlNamed label e.name && !c.isListed e.node then c.pop
    else c.closeFormattingRounds label 8
  | none => c

/-- A link inside a link closes the outer one. -/
def closeOuterLink (c : Construction) : Construction :=
  match latestNamed? "a" c.formatting with
  | none => c
  | some (node, _) =>
    let c := c.closeFormatting "a"
    { c with formatting := removeEntry node c.formatting }.removeOpen node

end Construction
end Html
end Markup
end CrossRef
