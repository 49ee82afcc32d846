/-!
TOML values. Numbers and moments are kept as they are written.
-/
namespace CrossRef

inductive Toml
  | text (value : String)
  | bool (value : Bool)
  | number (literal : String)
  /-- A date, a time of day, or both. -/
  | moment (literal : String)
  | array (items : List Toml)
  | table (members : List (String × Toml))
  deriving Repr, Inhabited

namespace Toml

/-- Blanks within a line. -/
def isBlank (c : Char) : Bool := c = ' ' || c = '\t'

def skipBlanks (cs : List Char) : List Char := cs.dropWhile isBlank

/-- May the character stand in a comment or in quotes of one line? -/
def isTextChar (c : Char) : Bool := c = '\t' || (' ' ≤ c && c ≠ '\x7f')

end Toml
end CrossRef
