import CrossRef.Build.Basic

/-!
Assets: files and directories that are copied into the output directory under their own names.
-/
namespace CrossRef
namespace Build

variable {m : Type → Type} [Monad m] [FileAccess m]

def makeOutputDirectory (directory : Path) : m (Except BuildFault Unit) := do
  return (← Files.makeDirectories directory).mapError (.outputUnwritable directory)

/-- Copy a file to a target, in a directory that is made if it is missing. -/
def copyFile (source target : Path) : m (Except BuildFault Unit) := do
  let made ← match target.parent? with
    | some parent => makeOutputDirectory parent
    | none => pure (.ok ())
  match made with
  | .error fault => return .error fault
  | .ok () => return (← Files.copy source target).mapError (.outputUnwritable target)

/-- Copy what stands below a directory, and count the files. -/
def copyBelow (source target : Path) :
    List (List (List Char) × EntryKind) → m (Except BuildFault Nat)
  | [] => return .ok 0
  | (names, kind) :: rest => do
    let (copied, count) ← match kind with
      | .directory => do pure (← makeOutputDirectory (target.joinAll names), 0)
      | .file => do pure (← copyFile (source.joinAll names) (target.joinAll names), 1)
    match copied with
    | .error fault => return .error fault
    | .ok () => return (← copyBelow source target rest).map (count + ·)

/-- Copy an asset into a directory, and count the files. An asset that is missing or has no name is
passed over. -/
def copyAsset (source directory : Path) : m (Except BuildFault Nat) := do
  match ← FileAccess.kind? source, source.fileName? with
  | some .file, some name => return (← copyFile source (directory.join name)).map fun () => 1
  | some .directory, some name =>
    let target := directory.join name
    match ← makeOutputDirectory target with
    | .error fault => return .error fault
    | .ok () => copyBelow source target (← FileAccess.below source)
  | _, _ => return .ok 0

/-- Copy assets one after the other. -/
def copyAssets (directory : Path) : List Path → m (Except BuildFault Nat)
  | [] => return .ok 0
  | source :: rest => do
    match ← copyAsset source directory with
    | .error fault => return .error fault
    | .ok count => return (← copyAssets directory rest).map (count + ·)

end Build
end CrossRef
