import CrossRef.Markup.Html.Construction.Step
import CrossRef.Markup.Html.Writer

/-!
Fragments: the markup of one chapter. A fragment is read as the body of a document, and only what
is below that body is written back.
-/
namespace CrossRef
namespace Markup

structure Fragment where
  dom : Dom
  root : NodeId
  deriving Repr, Inhabited

namespace Fragment

/-- Read markup. The root is the body that it stands in. -/
def parse (html : String) : Fragment :=
  let dom := Html.Construction.run html
  ⟨dom, ((dom.elementsBelow (some Dom.document) "body").head?).getD Dom.document⟩

/-- The elements with a local name, in document order. -/
def elements (f : Fragment) (label : String) : List NodeId :=
  f.dom.elementsBelow (some f.root) label

/-- What a link into the same document points to: the text after the number sign. -/
def localTarget? (dom : Dom) (link : NodeId) : Option String :=
  match (dom.attribute? (some link) "href").map String.toList with
  | some ('#' :: target) => some (String.ofList target)
  | _ => none

/-- The links that point into the same document, in document order. -/
def localLinks (f : Fragment) : List NodeId :=
  (f.elements "a").filter fun link => (localTarget? f.dom link).isSome

/-- The markup of the fragment. -/
def html (f : Fragment) : String := f.dom.innerHtml (some f.root)

end Fragment
end Markup
end CrossRef
