import CrossRef.Markup.Dom.Edit

/-!
Placement: the ways in which building a tree puts new material into the arena. The material is a
node or a run of text, and text placed at the end of a node merges with the text already there.
-/
namespace CrossRef
namespace Markup

/-- What is placed: an existing node, or text for which a node may have to be made. -/
inductive Material
  | node (link : Link)
  | text (text : String)
  deriving DecidableEq, Repr, Inhabited

namespace Dom

/-- Place at the end of `parent`. -/
def place (dom : Dom) (parent : Link) : Material → Dom
  | .node child => dom.append parent child
  | .text text => dom.appendText parent text

/-- Place at the end of the parent of `element`, or of `fallback` when it has none. -/
def placeOutside (dom : Dom) (element fallback : Link) (material : Material) : Dom :=
  match dom.parent? element with
  | some parent => dom.place (some parent) material
  | none => dom.place fallback material

/-- Place directly before `sibling`. Text always becomes a node of its own here. -/
def placeBefore (dom : Dom) (sibling : Link) : Material → Dom
  | .node new => dom.insertBefore sibling new
  | .text text =>
    let (dom, i) := dom.create (.text text)
    dom.insertBefore sibling (some i)

/-- Add a document type declaration at the end of the document. -/
def placeDoctype (dom : Dom) (name : String) : Dom :=
  let (dom, i) := dom.create (.doctype name)
  dom.append (some document) (some i)

end Dom
end Markup
end CrossRef
