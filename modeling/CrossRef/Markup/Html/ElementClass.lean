import CrossRef.Markup.Name

/-!
Classes of elements that tree construction tells apart.
-/
namespace CrossRef
namespace Markup
namespace Html

/-- Is this an HTML element with one of the given names? -/
def isHtmlAmong (labels : List String) (name : Name) : Bool :=
  name.vocabulary = .html && labels.contains name.label

def isHtmlNamed (label : String) (name : Name) : Bool :=
  name.vocabulary = .html && name.label = label

/-- The MathML elements whose text content is HTML. -/
def isMathTextPoint (name : Name) : Bool :=
  name.vocabulary = .mathml && ["mi", "mo", "mn", "ms", "mtext"].contains name.label

/-- The SVG elements whose content is HTML. -/
def isSvgHtmlPoint (name : Name) : Bool :=
  name.vocabulary = .svg && ["foreignObject", "desc", "title"].contains name.label

/-- The elements that end an ordinary look outward through the open elements. -/
def endsScope (name : Name) : Bool :=
  isHtmlAmong ["applet", "caption", "html", "table", "td", "th", "marquee", "object", "select",
    "template"] name || isMathTextPoint name || isSvgHtmlPoint name

def endsListScope (name : Name) : Bool := isHtmlAmong ["ol", "ul"] name || endsScope name

def endsButtonScope (name : Name) : Bool := isHtmlNamed "button" name || endsScope name

def endsTableScope (name : Name) : Bool := isHtmlAmong ["html", "table", "template"] name

/-- The elements that content of a table body is put into. -/
def isTableBodyContext (name : Name) : Bool :=
  isHtmlAmong ["tbody", "tfoot", "thead", "template", "html"] name

/-- The elements that content of a table row is put into. -/
def isTableRowContext (name : Name) : Bool := isHtmlAmong ["tr", "template", "html"] name

/-- The elements that hold cells only, so that other content is put outside the table. -/
def isTableFrame (name : Name) : Bool :=
  isHtmlAmong ["table", "tbody", "tfoot", "thead", "tr"] name

def isCell (name : Name) : Bool := isHtmlAmong ["td", "th"] name

/-- The elements that only the modes of tables open and close. -/
def isTablePart (name : Name) : Bool :=
  isTableFrame name || isCell name || isHtmlAmong ["caption", "colgroup"] name

def isHeading (name : Name) : Bool := isHtmlAmong ["h1", "h2", "h3", "h4", "h5", "h6"] name

/-- The elements whose end tags may be left out. -/
def hasImpliedEnd (name : Name) : Bool :=
  isHtmlAmong ["dd", "dt", "li", "option", "optgroup", "p", "rb", "rp", "rt", "rtc"] name

/-- The elements whose end tags may be left out when a template ends. -/
def hasImpliedEndInTemplate (name : Name) : Bool :=
  hasImpliedEnd name || isHtmlAmong ["caption", "colgroup", "tbody", "td", "tfoot", "th", "thead",
    "tr"] name

/-- The elements that an end tag of another name does not reach past. -/
def isSpecial (name : Name) : Bool :=
  isHtmlAmong ["address", "applet", "area", "article", "aside", "base", "basefont", "bgsound",
    "blockquote", "body", "br", "button", "caption", "center", "col", "colgroup", "dd", "details",
    "dir", "div", "dl", "dt", "embed", "fieldset", "figcaption", "figure", "footer", "form",
    "frame", "frameset", "h1", "h2", "h3", "h4", "h5", "h6", "head", "header", "hgroup", "hr",
    "html", "iframe", "img", "input", "isindex", "li", "link", "listing", "main", "marquee",
    "menu", "meta", "nav", "noembed", "noframes", "noscript", "object", "ol", "p", "param",
    "plaintext", "pre", "script", "search", "section", "select", "source", "style", "summary",
    "table", "tbody", "td", "template", "textarea", "tfoot", "th", "thead", "title", "tr",
    "track", "ul", "wbr", "xmp"] name

/-- The special elements that a list item reaches past. -/
def endsItemSearch (name : Name) : Bool :=
  isSpecial name && !isHtmlAmong ["address", "div", "p"] name

end Html
end Markup
end CrossRef
