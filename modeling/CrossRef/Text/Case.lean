import CrossRef.Text.CaseRanges
import CrossRef.Text.Range

/-!
Case. `lowercase` maps whole texts and minds the two forms of a small sigma; `fold` maps single
characters so that two of them differ in case alone if and only if they have the same image.
-/
namespace CrossRef
namespace Text

/-- The character that stands for all that differ from this one in case alone. -/
def fold (c : Char) : Char := ((inRuns? foldingRuns c.toNat).map Char.ofNat).getD c

def isCased (c : Char) : Bool := inRanges casedRanges c.toNat

def isCaseIgnorable (c : Char) : Bool := inRanges caseIgnorableRanges c.toNat

/-- Is the nearest character that case depends on a letter of a case? -/
def meetsCased (cs : List Char) : Bool := (cs.dropWhile isCaseIgnorable).head?.any isCased

/-- The small letters of a character. `before` is the text in front of it, nearest first. -/
def lowercaseChar (before : List Char) (c : Char) (after : List Char) : List Char :=
  if c = '\u03a3' then
    if meetsCased before && !meetsCased after then ['\u03c2'] else ['\u03c3']
  else if c = '\u0130' then ['i', '\u0307']
  else [((inRuns? lowercaseRuns c.toNat).map Char.ofNat).getD c]

def lowercaseFrom (before : List Char) : List Char → List Char
  | [] => []
  | c :: rest => lowercaseChar before c rest ++ lowercaseFrom (c :: before) rest

/-- The text in small letters. -/
def lowercase (s : String) : String := String.ofList (lowercaseFrom [] s.toList)

end Text
end CrossRef
