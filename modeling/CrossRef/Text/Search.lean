/-!
Occurrences of a piece of text in another.
-/
namespace CrossRef
namespace Text

/-- What follows the piece, if the text starts with it. -/
def afterStart? : List Char → List Char → Option (List Char)
  | [], cs => some cs
  | _ :: _, [] => none
  | p :: piece, c :: cs => if p = c then afterStart? piece cs else none

/-- The text before and after the first occurrence of a piece. -/
def splitFirst? (piece : List Char) : List Char → Option (List Char × List Char)
  | [] => if piece.isEmpty then some ([], []) else none
  | c :: cs =>
    match afterStart? piece (c :: cs) with
    | some after => some ([], after)
    | none => (splitFirst? piece cs).map fun (before, after) => (c :: before, after)

/-- Replace the first occurrence of a piece. -/
def replaceFirst (piece new s : String) : String :=
  match splitFirst? piece.toList s.toList with
  | some (before, after) => String.ofList (before ++ new.toList ++ after)
  | none => s

/-- Replace each occurrence of a piece, after skipping the characters of one just replaced. -/
def replaceFrom (piece new : List Char) : Nat → List Char → List Char
  | _, [] => []
  | skip + 1, _ :: cs => replaceFrom piece new skip cs
  | 0, c :: cs =>
    match afterStart? piece (c :: cs) with
    | some _ => new ++ replaceFrom piece new (piece.length - 1) cs
    | none => c :: replaceFrom piece new 0 cs

/-- Replace every occurrence of a piece that is not empty. -/
def replaceAll (piece new s : String) : String :=
  String.ofList (replaceFrom piece.toList new.toList 0 s.toList)

end Text
end CrossRef
