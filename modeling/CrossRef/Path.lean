import CrossRef.Text.Split

/-!
Paths. A path keeps the text it was given as; what it leads through are its names. A path that starts
with a slash is absolute, empty names and single dots lead nowhere, and two dots lead up.
-/
namespace CrossRef

open Text

structure Path where
  text : String
  deriving DecidableEq, Repr, Inhabited

namespace Path

def isAbsolute (p : Path) : Bool := p.text.toList.head? = some '/'

/-- A path seen from another one, which an absolute path replaces. -/
def join (base : Path) (p : String) : Path :=
  if Path.isAbsolute ⟨p⟩ then ⟨p⟩
  else if base.text.isEmpty || base.text.toList.getLast? = some '/' then ⟨base.text ++ p⟩
  else ⟨base.text ++ "/" ++ p⟩

theorem join_of_isAbsolute (base : Path) {p : String} (h : Path.isAbsolute ⟨p⟩ = true) :
    base.join p = ⟨p⟩ := by simp [join, h]

/-- What a path starts with: a slash, a single dot, or neither. -/
def start (p : Path) : List Char :=
  match p.text.toList with
  | '/' :: _ => ['/']
  | ['.'] => ['.']
  | '.' :: '/' :: _ => ['.']
  | _ => []

/-- The texts between the slashes after the start. -/
def pieces (p : Path) : List (List Char) := cutAt '/' (p.text.toList.drop p.start.length)

/-- The path with this start and these pieces. -/
def ofPieces (start : List Char) (pieces : List (List Char)) : Path :=
  ⟨String.ofList (start ++ joinWith '/' pieces)⟩

/-- Does a piece lead nowhere? -/
def isIdle (piece : List Char) : Bool := piece = [] || piece = ['.']

def dropIdleEnd (pieces : List (List Char)) : List (List Char) :=
  (pieces.reverse.dropWhile isIdle).reverse

/-- The names that a path leads through, one after the other. -/
def names (p : Path) : List (List Char) := p.pieces.filter fun piece => !isIdle piece

/-- The path without its last name. The root and the empty path have none above them. -/
def parent? (p : Path) : Option Path :=
  let pieces := dropIdleEnd p.pieces
  if pieces.isEmpty then
    if p.start = ['.'] then some ⟨""⟩ else none
  else some (ofPieces p.start (dropIdleEnd pieces.dropLast))

/-- The paths above a path, nearest first, at most this many. -/
def above : Nat → Path → List Path
  | 0, _ => []
  | count + 1, p =>
    match p.parent? with
    | some parent => parent :: above count parent
    | none => []

/-- The last name of a path, unless that leads up. -/
def fileName? (p : Path) : Option String :=
  match p.names.getLast? with
  | some name => if name = ['.', '.'] then none else some (String.ofList name)
  | none => none

/-- What is left of the names after those of a path above. -/
def dropNames : List (List Char) → List (List Char) → Option (List (List Char))
  | [], pieces => some (pieces.dropWhile isIdle)
  | name :: names, pieces =>
    match pieces.dropWhile isIdle with
    | piece :: rest => if piece = name then dropNames names rest else none
    | [] => none

/-- The path as seen from a path above it; any other path stays as it is. -/
def relativeTo (p base : Path) : Path :=
  if p.start = base.start then
    match dropNames base.names p.pieces with
    | some pieces => ofPieces [] (dropIdleEnd pieces)
    | none => p
  else p

/-- Go on with names, one after the other. -/
def joinAll (base : Path) (names : List (List Char)) : Path :=
  names.foldl (fun p name => p.join (String.ofList name)) base

/-- Does a path start with two slashes, and not with three? -/
def startsDoubled (p : Path) : Bool :=
  match p.text.toList with
  | '/' :: '/' :: '/' :: _ => false
  | '/' :: '/' :: _ => true
  | _ => false

/-- The absolute path that a path means in a directory. Pieces that lead nowhere are left out, names
that lead up stay, and so does a slash at the end. The empty path means nothing and stays. -/
def absoluteIn (directory p : Path) : Path :=
  if p.text.isEmpty then p
  else
    let base : Path :=
      if p.startsDoubled then ⟨"//"⟩ else if p.isAbsolute then ⟨"/"⟩ else directory
    let whole := base.joinAll p.names
    if p.text.toList.getLast? = some '/' then whole.join "" else whole

end Path
end CrossRef
