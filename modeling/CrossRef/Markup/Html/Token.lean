/-!
Tokens: the tags, comments and runs of text that HTML text is made of.
-/
namespace CrossRef
namespace Markup
namespace Html

structure Tag where
  label : String
  attributes : List (String × String)
  isSelfClosing : Bool
  deriving DecidableEq, Repr, Inhabited

/-- A tag without attributes. -/
abbrev Tag.bare (label : String) : Tag := ⟨label, [], false⟩

/-- The value of an attribute; the names of a tag's attributes differ. -/
def Tag.attribute? (tag : Tag) (label : String) : Option String := tag.attributes.lookup label

inductive Token
  | opening (tag : Tag)
  | closing (tag : Tag)
  | comment (text : String)
  | text (chars : List Char)
  | null
  | doctype
  deriving DecidableEq, Repr, Inhabited

/-- How the text ahead is to be read. -/
inductive ReadingMode
  /-- Tags, comments and text. -/
  | markup
  /-- Text up to the end tag of this element, with character references. -/
  | escapable (label : String)
  /-- Text up to the end tag of this element. -/
  | raw (label : String)
  /-- Text up to the end tag of a script, which comments can hide. -/
  | script
  /-- Text up to the end of the input. -/
  | plain
  /-- Text up to the end of a character data section. -/
  | section
  deriving DecidableEq, Repr, Inhabited

end Html
end Markup
end CrossRef
