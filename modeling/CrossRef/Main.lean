import CrossRef.CommandLine.Run
import Std.Time.Format

/-!
The command line over the files of the machine.
-/
namespace CrossRef
namespace CommandLine

/-- The fault behind an error of the system, whose code comes with either sign. -/
def faultOfCode (code : UInt32) (words : String) : FileFault :=
  let code := if 0x80000000 ≤ code then 0 - code else code
  if code = 2 then .notFound
  else if code = 17 then .alreadyExists
  else if code = 20 then .notADirectory
  else if code = 21 then .isADirectory
  else if code = 36 then .nameTooLong
  else .other words

def faultOf (error : IO.Error) : FileFault :=
  match error with
  | .noFileOrDirectory _ code _ | .alreadyExists _ code _ | .inappropriateType _ code _
  | .permissionDenied _ code _ | .invalidArgument _ code _ | .otherError code _ =>
    faultOfCode code (toString error)
  | _ => .other (toString error)

def attempt (action : IO α) : IO (Except FileFault α) := do
  match ← action.toBaseIO with
  | .ok a => return .ok a
  | .error error => return .error (faultOf error)

def kindAt? (p : Path) : IO (Option EntryKind) := do
  let file := (← IO.currentDir) / p.text
  if ← file.isDir then return some .directory
  if ← file.pathExists then return some .file
  return none

/-- What stands below a directory, down to a depth. -/
def listBelow : (depth : Nat) → Path → List (List Char) → IO (List (List (List Char) × EntryKind))
  | 0, _, _ => return []
  | depth + 1, p, above => do
    let mut found := #[]
    for entry in ← ((← IO.currentDir) / p.text).readDir do
      let names := above ++ [entry.fileName.toList]
      let child := p.join entry.fileName
      if (← kindAt? child) = some .directory then
        found := found.push (names, .directory) ++ (← listBelow depth child names).toArray
      else found := found.push (names, .file)
    return found.toList

/-- No path of the system has more names than it may have characters. -/
def maxDepth : Nat := 4096

instance : FileAccess IO where
  workingDirectory := do return ⟨(← IO.currentDir).toString⟩
  kind? := kindAt?
  read p := attempt (IO.FS.readBinFile p.text)
  write p content := attempt (IO.FS.writeBinFile p.text content)
  makeDirectory p := attempt (IO.FS.createDir p.text)
  below p := do return (← attempt (listBelow maxDepth p [])).toOption.getD []

/-- The present moment in universal time. -/
def timeText : IO String := do
  let now ← Std.Time.Timestamp.now
  return (Std.Time.DateTime.ofTimestampWithZone now .UTC).format
    "uuuu-MM-dd'T'HH:mm:ss.SSSSSSSSS'Z'"

def usageText : String :=
  "Usage: " ++ programName ++ " [OPTIONS] <" ++ "|".intercalate (Verb.all.map (·.label)) ++ ">\n"

end CommandLine
end CrossRef

open CrossRef CommandLine in
def main (args : List String) : IO UInt32 := do
  let stdout ← IO.getStdout
  let outcome : Outcome ← runArguments ⟨← timeText, ← stdout.isTty⟩ args
  stdout.putStr outcome.stdout
  match ofArguments args with
  | .error .help => stdout.putStr usageText
  | .error .usage => (← IO.getStderr).putStr usageText
  | _ => pure ()
  match outcome.error with
  | some line => (← IO.getStderr).putStrLn line
  | none => pure ()
  return outcome.exitCode.toUInt32
