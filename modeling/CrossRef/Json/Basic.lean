/-!
JSON values. A number is kept as a natural number if it is written as one, and a text with half of a
surrogate pair is well-formed but stands for no text.
-/
namespace CrossRef

inductive Json
  | null
  | bool (value : Bool)
  | natural (value : Nat)
  /-- Any other number as it is written: negative, or with a fraction or an exponent. -/
  | number (literal : String)
  | text (value : String)
  /-- Text with a surrogate that is not part of a pair. -/
  | unpaired
  | array (items : List Json)
  /-- Members in the order of writing. A name without text is written with an unpaired surrogate. -/
  | object (members : List (Option String × Json))
  deriving Repr, Inhabited

namespace Json

/-- The object with these members. -/
def ofMembers (members : List (String × Json)) : Json :=
  .object (members.map fun (name, value) => (some name, value))

def ofTexts (texts : List String) : Json := .array (texts.map .text)

def ofOption (f : α → Json) : Option α → Json
  | some a => f a
  | none => .null

end Json
end CrossRef
