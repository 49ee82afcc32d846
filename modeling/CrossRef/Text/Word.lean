import CrossRef.Text.WordRanges
import CrossRef.Text.Case

/-!
Whole words. A word boundary lies where a word character and another character, or an end of the
text, meet.
-/
namespace CrossRef
namespace Text

def isWordChar (c : Char) : Bool := inRanges wordRanges c.toNat

/-- Is there a word boundary between the character before a place and the one after it? -/
def isBoundary (before after : Option Char) : Bool :=
  before.any isWordChar != after.any isWordChar

/-- Does the text start with the token, apart from case? -/
def startsWithFolded : List Char → List Char → Bool
  | [], _ => true
  | _ :: _, [] => false
  | t :: token, c :: cs => fold t = fold c && startsWithFolded token cs

/-- Does the token stand here as a whole word? -/
def isWordHere (before : Option Char) (token cs : List Char) : Bool :=
  startsWithFolded token cs && isBoundary before cs.head? &&
    isBoundary ((cs.take token.length).getLast?.or before) (cs.drop token.length).head?

/-- A text cut at an occurrence of a token. -/
structure Cut where
  before : List Char
  found : List Char
  after : List Char
  deriving DecidableEq, Repr

/-- Cut at the first place where one of the tokens stands as a whole word; of several tokens at one
place the first of the list counts. `seen` holds in reverse what stands before. -/
def cutFrom (tokens : List (List Char)) (seen : List Char) : List Char → Option Cut
  | [] =>
    match tokens.find? fun token => isWordHere seen.head? token [] with
    | some _ => some ⟨seen.reverse, [], []⟩
    | none => none
  | c :: rest =>
    match tokens.find? fun token => isWordHere seen.head? token (c :: rest) with
    | some token =>
      some ⟨seen.reverse, (c :: rest).take token.length, (c :: rest).drop token.length⟩
    | none => cutFrom tokens (c :: seen) rest

def cutAtWord? (tokens : List String) (s : String) : Option Cut :=
  cutFrom (tokens.map String.toList) [] s.toList

end Text
end CrossRef
