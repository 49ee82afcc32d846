import CrossRef.Manifest.Basic
import CrossRef.Markup.Fragment
import CrossRef.Text.Blank
import CrossRef.Text.Digit
import CrossRef.Text.Split

/-!
Equations: the numbered display equations of a chapter. What is shown next to an equation and what a
reference to it says come from the same scan.
-/
namespace CrossRef
namespace Index

open Markup

/-- Which display equations are numbered. -/
inductive Numbering
  | allDisplay
  | identifiedOnly
  deriving DecidableEq, Repr, Inhabited

namespace Numbering

/-- The name of a policy in settings. -/
def label : Numbering → String
  | allDisplay => "all-display"
  | identifiedOnly => "identified-only"

def ofLabel? (label : String) : Option Numbering :=
  [allDisplay, identifiedOnly].find? fun numbering => numbering.label = label

end Numbering

/-- An equation that references can lead to. -/
structure EquationEntry where
  identifier : String
  number : String
  chapterId : String
  chapterNumber : String
  deriving DecidableEq, Repr, Inhabited

/-- A numbered equation, with its place among the numbered equations of the chapter from one on. -/
structure ScannedEquation where
  node : NodeId
  sequence : Nat
  identifier : Option String
  deriving DecidableEq, Repr, Inhabited

/-- The equations of a chapter, each under its identifier, and how many numbers were given. Nothing
depends on the order in which they are kept. -/
structure ChapterEquations where
  entries : List EquationEntry
  numbered : Nat
  deriving DecidableEq, Repr, Inhabited

namespace ChapterEquations

def empty : ChapterEquations := ⟨[], 0⟩

def get? (equations : ChapterEquations) (identifier : String) : Option EquationEntry :=
  equations.entries.find? fun entry => entry.identifier = identifier

/-- How many equations references can lead to. -/
def size (equations : ChapterEquations) : Nat := equations.entries.length

end ChapterEquations

/-- The greatest place that an equation can have, which is a number of 64 bits. -/
def lastPlace : Nat := UInt64.size - 1

/-- The place in a number that is shown: what its last part says, if that is a number at all. -/
def sequenceOf (shown : String) : Nat :=
  let part := (Text.cutAt '.' shown.toList).getLast?.getD []
  let digits := if part.head? = some '+' then part.tail else part
  if digits ≠ [] ∧ digits.all Text.isAsciiDigit then
    min (Text.numeral 10 Text.decimalDigit? digits) lastPlace
  else lastPlace

/-- Equations in the order of their places. -/
def sortBySequence (entries : List EquationEntry) : List EquationEntry :=
  entries.mergeSort fun e e' => sequenceOf e.number ≤ sequenceOf e'.number

/-- The equations that references can lead to, as reports list them. -/
def ChapterEquations.listed (equations : ChapterEquations) : List EquationEntry :=
  sortBySequence equations.entries

/-- What marks an identifier as one of an equation. -/
def equationMark : List Char := "eq:".toList

def isEquationIdentifier (identifier : String) : Bool :=
  equationMark.isPrefixOf identifier.toList

/-- How many nodes above an equation may carry its identifier. -/
def ownerSearchDepth : Nat := 3

def isDisplayMath (dom : Dom) (node : NodeId) : Bool :=
  dom.isElement (some node) "math" &&
    (dom.attribute? (some node) "display").any fun value =>
      Text.equalIgnoringAsciiCase (Text.trim value) "block"

/-- The identifier of a node, without blanks around it. -/
def ownIdentifier? (dom : Dom) (node : NodeId) : Option String :=
  match (dom.attribute? (some node) "id").map Text.trim with
  | some "" => none
  | other => other

/-- The identifier of the nearest node that has one, looking at most `depth` nodes up. -/
def nearestIdentifier? (dom : Dom) : Nat → NodeId → Option String
  | depth, node =>
    match ownIdentifier? dom node with
    | some identifier => some identifier
    | none =>
      match depth, dom.parent? (some node) with
      | depth + 1, some parent => nearestIdentifier? dom depth parent
      | _, _ => none

/-- The identifier that an equation is known by. -/
def owningIdentifier? (dom : Dom) (node : NodeId) : Option String :=
  nearestIdentifier? dom ownerSearchDepth node

def isNumbered (dom : Dom) (numbering : Numbering) (node : NodeId) : Bool :=
  isDisplayMath dom node &&
    match numbering with
    | .allDisplay => true
    | .identifiedOnly => (owningIdentifier? dom node).any isEquationIdentifier

/-- Count nodes from a number on. -/
def scanFrom (dom : Dom) : Nat → List NodeId → List ScannedEquation
  | _, [] => []
  | n, node :: rest => ⟨node, n, owningIdentifier? dom node⟩ :: scanFrom dom (n + 1) rest

/-- The numbered equations of a fragment in document order. -/
def scanEquations (f : Fragment) (numbering : Numbering) : List ScannedEquation :=
  scanFrom f.dom 1 ((f.dom.descendants (some f.root)).filter (isNumbered f.dom numbering))

/-- The number of an equation as it is shown. -/
def equationNumber (chapterNumber : ChapterNumber) (sequence : Nat) : String :=
  chapterNumber.shown ++ "." ++ toString sequence

/-- Register an equation under its identifier, unless that is taken. -/
def registerEquation (chapter : Chapter) (number : ChapterNumber) (entries : List EquationEntry)
    (equation : ScannedEquation) : List EquationEntry :=
  match equation.identifier with
  | none => entries
  | some identifier =>
    if entries.any (·.identifier = identifier) then entries
    else entries ++ [⟨identifier, equationNumber number equation.sequence, chapter.id, number.shown⟩]

/-- The equations of a chapter. A chapter without a number has none. -/
def equationsOf (chapter : Chapter) (f : Fragment) (numbering : Numbering) : ChapterEquations :=
  match chapter.number with
  | none => .empty
  | some number =>
    let scanned := scanEquations f numbering
    ⟨scanned.foldl (registerEquation chapter number) [], scanned.length⟩

end Index
end CrossRef
