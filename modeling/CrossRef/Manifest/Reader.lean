import CrossRef.Manifest.Basic
import CrossRef.Json.Reader

/-!
Reading manifests. A record is an object with its fields in any order, or an array of the fields in
their order. Fields that are not known are passed over, a known field may stand only once, and no
two chapters share an id.
-/
namespace CrossRef

/-- What can be wrong with the text of a manifest. -/
inductive ManifestFault
  | malformed
  | duplicateId (id : String)
  deriving DecidableEq, Repr, Inhabited

/-- What is said of a fault. -/
def ManifestFault.message : ManifestFault → String
  | .malformed => "Malformed manifest"
  | .duplicateId id => "Duplicate chapter id '" ++ id ++ "' in manifest"

namespace Manifest

/-- What is known of a field while its record is read. -/
inductive Field (α : Type)
  | absent
  | present (value : α)

/-- The value of a field that a record must have. -/
def Field.required : Field α → Option α
  | .absent => none
  | .present value => some value

/-- The value of a field, or another one if it is left out. -/
def Field.orElse (fallback : α) : Field α → α
  | .absent => fallback
  | .present value => value

/-- The only member of this name. No answer means that there is more than one, or that its value is
refused. -/
def field? (read : Json → Option α) (name : String) (members : List (Option String × Json)) :
    Option (Field α) :=
  match members.filter fun member => member.1 = some name with
  | [] => some .absent
  | [(_, value)] => (read value).map .present
  | _ => none

/-- The item of an array at a position. -/
def item? (read : Json → Option α) (position : Nat) (items : List Json) : Option (Field α) :=
  match items[position]? with
  | none => some .absent
  | some value => (read value).map .present

/-- The names of members are texts. -/
def allNamed (members : List (Option String × Json)) : Bool := members.all (·.1.isSome)

def readText? : Json → Option String
  | .text s => some s
  | _ => none

/-- A value that may be missing or null. -/
def readOptional? (read : Json → Option α) : Json → Option (Option α)
  | .null => some none
  | json => (read json).map some

/-- An ordinal has at most 64 bits. -/
def readNumber? : Json → Option ChapterNumber
  | .natural n => if n < Nat.pow 2 64 then some (.ordinal n) else none
  | .text s => some (.label s)
  | _ => none

/-- A group is its name, or an object that gives the name the value null. -/
def readGroup? : Json → Option ChapterGroup
  | .text s => some (.ofLabel s)
  | .object [(some name, .null)] => some (.ofLabel name)
  | _ => none

def chapterOf? (id : Field String) (number : Field (Option ChapterNumber)) (title : Field String)
    (refId : Field (Option String)) (group : Field ChapterGroup) : Option Chapter := do
  let id ← id.required
  let title ← title.required
  return ⟨id, number.orElse none, title, refId.orElse none, group.orElse .chapters⟩

def readChapter? : Json → Option Chapter
  | .object members =>
    if allNamed members then do
      let id ← field? readText? "id" members
      let number ← field? (readOptional? readNumber?) "number" members
      let title ← field? readText? "title" members
      let refId ← field? (readOptional? readText?) "refId" members
      let group ← field? readGroup? "section" members
      chapterOf? id number title refId group
    else none
  | .array items =>
    if items.length ≤ 5 then do
      let id ← item? readText? 0 items
      let number ← item? (readOptional? readNumber?) 1 items
      let title ← item? readText? 2 items
      let refId ← item? (readOptional? readText?) 3 items
      let group ← item? readGroup? 4 items
      chapterOf? id number title refId group
    else none
  | _ => none

def readChapters? : Json → Option (List Chapter)
  | .array items => items.mapM readChapter?
  | _ => none

def readRecord? : Json → Option Manifest
  | .object members =>
    if allNamed members then do
      let chapters ← field? readChapters? "chapters" members
      return ⟨← chapters.required⟩
    else none
  | .array [chapters] => (readChapters? chapters).map (⟨·⟩)
  | _ => none

/-- The manifest that a JSON value stands for. -/
def ofJson (json : Json) : Except ManifestFault Manifest :=
  match readRecord? json with
  | none => .error .malformed
  | some manifest =>
    match repeatedId? [] manifest.chapters with
    | some id => .error (.duplicateId id)
    | none => .ok manifest

/-- The manifest that a text is written for. -/
def read (text : String) : Except ManifestFault Manifest :=
  match Json.read? text with
  | some json => ofJson json
  | none => .error .malformed

end Manifest
end CrossRef
