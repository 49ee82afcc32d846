/-!
Qualified names: the names of elements and attributes, with the vocabulary each belongs to.
-/
namespace CrossRef
namespace Markup

/-- The vocabularies of markup. Attributes without one are `plain`. -/
inductive Vocabulary
  | plain
  | html
  | mathml
  | svg
  | xlink
  | xml
  | xmlns
  deriving DecidableEq, Repr, Inhabited

/-- A local name inside a vocabulary. -/
structure Name where
  vocabulary : Vocabulary
  label : String
  deriving DecidableEq, Repr, Inhabited

/-- The name of an HTML element. -/
abbrev Name.html (label : String) : Name := ⟨.html, label⟩

structure Attribute where
  name : Name
  value : String
  deriving DecidableEq, Repr, Inhabited

/-- An attribute outside every vocabulary, as HTML attributes are. -/
abbrev Attribute.plain (label value : String) : Attribute := ⟨⟨.plain, label⟩, value⟩

end Markup
end CrossRef
