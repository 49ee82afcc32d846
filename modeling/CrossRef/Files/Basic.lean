import CrossRef.Path

/-!
Access to files. The operations are given by a class, so that the same build runs over a tree of
files that is a value and over the files of the machine.
-/
namespace CrossRef

/-- Why an operation on a file failed. -/
inductive FileFault
  | notFound
  | alreadyExists
  | notADirectory
  | isADirectory
  | nameTooLong
  | nulInName
  /-- The content is no text. -/
  | notText
  /-- Any other reason, in the words of the system. -/
  | other (words : String)
  deriving DecidableEq, Repr, Inhabited

def FileFault.message : FileFault → String
  | notFound => "No such file or directory (os error 2)"
  | alreadyExists => "File exists (os error 17)"
  | notADirectory => "Not a directory (os error 20)"
  | isADirectory => "Is a directory (os error 21)"
  | nameTooLong => "File name too long (os error 36)"
  | nulInName => "file name contained an unexpected NUL byte"
  | notText => "stream did not contain valid UTF-8"
  | other words => words

/-- What stands at a path. -/
inductive EntryKind
  | file
  | directory
  deriving DecidableEq, Repr, Inhabited

/-- The operations that a build needs. -/
class FileAccess (m : Type → Type) where
  workingDirectory : m Path
  kind? : Path → m (Option EntryKind)
  read : Path → m (Except FileFault ByteArray)
  /-- Put a content into a file, which is made if there is none. -/
  write : Path → ByteArray → m (Except FileFault Unit)
  /-- Make a directory in a directory that exists. -/
  makeDirectory : Path → m (Except FileFault Unit)
  /-- What stands below a directory, by names from there. Directories come before what they hold. -/
  below : Path → m (List (List (List Char) × EntryKind))

namespace Files

variable {m : Type → Type} [Monad m] [FileAccess m]

def isFile (p : Path) : m Bool := do return (← FileAccess.kind? p) = some .file

def isDirectory (p : Path) : m Bool := do return (← FileAccess.kind? p) = some .directory

def exists? (p : Path) : m Bool := do return (← FileAccess.kind? p).isSome

/-- The text of a content. -/
def textOf (content : ByteArray) : Except FileFault String :=
  match String.fromUTF8? content with
  | some text => .ok text
  | none => .error .notText

def readText (p : Path) : m (Except FileFault String) := do
  match ← FileAccess.read p with
  | .ok content => return textOf content
  | .error fault => return .error fault

def writeText (p : Path) (text : String) : m (Except FileFault Unit) :=
  FileAccess.write p text.toUTF8

/-- A directory that was there already is as good as a new one. -/
def acceptDirectory (p : Path) : Except FileFault Unit → m (Except FileFault Unit)
  | .ok () => return .ok ()
  | .error fault => do return if ← isDirectory p then .ok () else .error fault

/-- Make the first directory, and before it those after it in the list that are missing. -/
def makeUpward : List Path → m (Except FileFault Unit)
  | [] => return .ok ()
  | p :: above => do
    match ← FileAccess.makeDirectory p with
    | .error .notFound =>
      match ← makeUpward above with
      | .ok () => acceptDirectory p (← FileAccess.makeDirectory p)
      | .error fault => return .error fault
    | made => acceptDirectory p made

/-- Make a directory with all directories above it. -/
def makeDirectories (p : Path) : m (Except FileFault Unit) :=
  makeUpward ((p :: p.above p.text.length).filter fun q => q.parent?.isSome)

/-- Copy a file. The target is emptied before the content is read, so a file that is copied onto
itself loses its content. -/
def copy (source target : Path) : m (Except FileFault Unit) := do
  match ← FileAccess.read source with
  | .error fault => return .error fault
  | .ok _ =>
    match ← FileAccess.write target ByteArray.empty with
    | .error fault => return .error fault
    | .ok () =>
      match ← FileAccess.read source with
      | .error fault => return .error fault
      | .ok content => FileAccess.write target content

end Files
end CrossRef
