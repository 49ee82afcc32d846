import CrossRef.Build.Basic
import CrossRef.Index.Report

/-!
Reports that a build leaves in a directory.
-/
namespace CrossRef
namespace Build

open Index

/-- The analysis with the time it was made at. -/
def analysisJson (time : String) (manifest : Manifest) (index : DocumentIndex) : Json :=
  .ofMembers (("generatedAt", .text time) :: (analysis manifest index).members)

/-- The reports by file name. -/
def reportFiles (time : String) (manifest : Manifest) (index : DocumentIndex) :
    List (String × Json) :=
  [("header-mapping.json", headerMapping manifest index),
    ("equation-mapping.json", equationMapping manifest index),
    ("cross-reference-analysis.json", analysisJson time manifest index)]

variable {m : Type → Type} [Monad m] [FileAccess m]

/-- Write reports one after the other up to the first that cannot be written. -/
def writeReportFiles (directory : Path) : List (String × Json) → m (Except BuildFault (List Path))
  | [] => return .ok []
  | (name, report) :: rest => do
    let path := directory.join name
    match ← Files.writeText path report.pretty with
    | .error fault => return .error (.reportUnwritable path fault)
    | .ok () => return (← writeReportFiles directory rest).map (path :: ·)

/-- Write all reports into a directory, which is made if it is missing. -/
def writeReports (directory : Path) (reports : List (String × Json)) :
    m (Except BuildFault (List Path)) := do
  match ← Files.makeDirectories directory with
  | .error fault => return .error (.reportUnwritable directory fault)
  | .ok () => writeReportFiles directory reports

end Build
end CrossRef
