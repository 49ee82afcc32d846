import CrossRef.Markup.Html.Token
import CrossRef.Markup.Html.ElementClass
import CrossRef.Text.Digit

/-!
Names inside MathML and SVG. The scanner reads all names in small letters; here they get back the
capitals of their vocabulary, and attributes with a known mark get the vocabulary it stands for.
-/
namespace CrossRef
namespace Markup
namespace Html

open Text

def svgElements : List String :=
  ["altGlyph", "altGlyphDef", "altGlyphItem", "animateColor", "animateMotion",
    "animateTransform", "clipPath", "feBlend", "feColorMatrix", "feComponentTransfer",
    "feComposite", "feConvolveMatrix", "feDiffuseLighting", "feDisplacementMap",
    "feDistantLight", "feDropShadow", "feFlood", "feFuncA", "feFuncB", "feFuncG", "feFuncR",
    "feGaussianBlur", "feImage", "feMerge", "feMergeNode", "feMorphology", "feOffset",
    "fePointLight", "feSpecularLighting", "feSpotLight", "feTile", "feTurbulence",
    "foreignObject", "glyphRef", "linearGradient", "radialGradient", "textPath"]

def svgAttributes : List String :=
  ["attributeName", "attributeType", "baseFrequency", "baseProfile", "calcMode",
    "clipPathUnits", "diffuseConstant", "edgeMode", "filterUnits", "glyphRef",
    "gradientTransform", "gradientUnits", "kernelMatrix", "kernelUnitLength", "keyPoints",
    "keySplines", "keyTimes", "lengthAdjust", "limitingConeAngle", "markerHeight",
    "markerUnits", "markerWidth", "maskContentUnits", "maskUnits", "numOctaves", "pathLength",
    "patternContentUnits", "patternTransform", "patternUnits", "pointsAtX", "pointsAtY",
    "pointsAtZ", "preserveAlpha", "preserveAspectRatio", "primitiveUnits", "refX", "refY",
    "repeatCount", "repeatDur", "requiredExtensions", "requiredFeatures", "specularConstant",
    "specularExponent", "spreadMethod", "startOffset", "stdDeviation", "stitchTiles",
    "surfaceScale", "systemLanguage", "tableValues", "targetX", "targetY", "textLength",
    "viewBox", "viewTarget", "xChannelSelector", "yChannelSelector", "zoomAndPan"]

def mathAttributes : List String := ["definitionURL"]

/-- The spelling with capitals among the given ones, or the name as it is. -/
def respell (spellings : List String) (label : String) : String :=
  (spellings.find? fun s => asciiLowercase s = label).getD label

def foreignElementLabel (vocabulary : Vocabulary) (label : String) : String :=
  if vocabulary = .svg then respell svgElements label else label

def foreignAttributeName (vocabulary : Vocabulary) (label : String) : Name :=
  match label with
  | "xlink:actuate" => ⟨.xlink, "actuate"⟩
  | "xlink:arcrole" => ⟨.xlink, "arcrole"⟩
  | "xlink:href" => ⟨.xlink, "href"⟩
  | "xlink:role" => ⟨.xlink, "role"⟩
  | "xlink:show" => ⟨.xlink, "show"⟩
  | "xlink:title" => ⟨.xlink, "title"⟩
  | "xlink:type" => ⟨.xlink, "type"⟩
  | "xml:base" => ⟨.xml, "base"⟩
  | "xml:lang" => ⟨.xml, "lang"⟩
  | "xml:space" => ⟨.xml, "space"⟩
  | "xmlns" => ⟨.xmlns, "xmlns"⟩
  | "xmlns:xlink" => ⟨.xmlns, "xlink"⟩
  | _ =>
    match vocabulary with
    | .svg => ⟨.plain, respell svgAttributes label⟩
    | .mathml => ⟨.plain, respell mathAttributes label⟩
    | _ => ⟨.plain, label⟩

/-- The attributes of a tag on an element of the given vocabulary. -/
def Tag.attributesIn (tag : Tag) (vocabulary : Vocabulary) : List Attribute :=
  tag.attributes.map fun (label, value) =>
    match vocabulary with
    | .svg | .mathml => ⟨foreignAttributeName vocabulary label, value⟩
    | _ => .plain label value

/-- The start tags that end foreign content: HTML elements which are never meant to be in it. -/
def Tag.leavesForeign (tag : Tag) : Bool :=
  ["b", "big", "blockquote", "body", "br", "center", "code", "dd", "div", "dl", "dt", "em",
    "embed", "h1", "h2", "h3", "h4", "h5", "h6", "head", "hr", "i", "img", "li", "listing",
    "menu", "meta", "nobr", "ol", "p", "pre", "ruby", "s", "small", "span", "strong", "strike",
    "sub", "sup", "table", "tt", "u", "ul", "var"].contains tag.label ||
  (tag.label = "font" &&
    tag.attributes.any fun (label, _) => ["color", "face", "size"].contains label)

end Html
end Markup
end CrossRef
