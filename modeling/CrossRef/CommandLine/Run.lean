import CrossRef.Build.Site
import CrossRef.CommandLine.Arguments
import CrossRef.CommandLine.Style
import CrossRef.Config.Schema
import CrossRef.Config.Writer

/-!
Running commands. The exit code tells a build in which all went well from one with chapters that
failed and from a run that could not do its work.
-/
namespace CrossRef
namespace CommandLine

/-- What a run leaves behind. -/
structure Outcome where
  exitCode : Nat
  stdout : String
  error : Option String
  deriving DecidableEq, Repr, Inhabited

def chapterFailures : Nat := 1

def toolError : Nat := 2

def Outcome.done (stdout : String) : Outcome := ⟨0, stdout, none⟩

def programName : String := "chapterlink"

def programVersion : String := "0.1.0"

/-- The outcome of arguments that ask for no command. -/
def Ending.outcome : Ending → Outcome
  | .usage => ⟨toolError, "", none⟩
  | .help => .done ""
  | .version => .done (programName ++ " " ++ programVersion ++ "\n")

/-- What a command knows of where it runs. -/
structure Setting where
  /-- The time that goes into reports. -/
  time : String
  isTerminal : Bool
  deriving DecidableEq, Repr, Inhabited

/-- A fault with what is behind it. -/
def describe (message : String) (cause : Option FileFault) : String :=
  match cause with
  | some fault => message ++ ": " ++ fault.message
  | none => message

def Outcome.failed (isColored : Bool) (message : String) (cause : Option FileFault) : Outcome :=
  ⟨toolError, "", some (Style.boldRed.paint isColored "Error" ++ ": " ++ describe message cause)⟩

def Outcome.ofConfigFault (isColored : Bool) (fault : ConfigFault) : Outcome :=
  .failed isColored fault.message fault.cause?

/-- The outcome of a build fault in some work. -/
def Outcome.ofBuildFault (isColored : Bool) (work : String) (fault : Build.BuildFault) : Outcome :=
  .failed isColored (work ++ ": " ++ fault.message) fault.cause?

/-- A line for a file that was written. -/
def writtenLine (isColored : Bool) (path : Path) : String :=
  Style.green.paint isColored "✓" ++ " " ++ path.text ++ "\n"

def failureLine (isColored : Bool) (failure : String × Build.ChapterFault) : String :=
  Style.red.paint isColored "✗" ++ " " ++ failure.1 ++ ": " ++ failure.2.message ++ "\n"

/-- The line that counts chapters. -/
def countLine (isColored : Bool) (summary : Build.Summary) (outputDir : Path) : String :=
  let written := "Built " ++ toString summary.written.length ++ " chapters"
  let failed := summary.failures.length
  let unresolved := summary.unresolvedCount
  (if failed = 0 then Style.boldGreen.paint isColored written
    else Style.boldRed.paint isColored (written ++ ", " ++ toString failed ++ " failed")) ++
    (if unresolved = 0 then ""
      else " (" ++ toString unresolved ++
        " unresolved references, run with --verbose for details)") ++
    " into " ++ outputDir.text ++ "\n"

def summaryText (isColored : Bool) (summary : Build.Summary) (outputDir : Path) : String :=
  let pageLine (path : Path) := writtenLine isColored (path.relativeTo outputDir)
  String.join (summary.written.map pageLine) ++
    String.join (summary.failures.map (failureLine isColored)) ++
    String.join (summary.indexPage.toList.map pageLine) ++
    String.join (summary.reports.map (writtenLine isColored)) ++
    (if summary.assetsCopied = 0 then ""
      else "Copied " ++ toString summary.assetsCopied ++ " asset files\n") ++
    "\n" ++ countLine isColored summary outputDir

def passLine (isColored : Bool) (config : Config) (pass : Pass) : String :=
  "  " ++ Style.cyan.paint isColored pass.label ++ " - " ++ pass.description ++
    (if config.disables pass.label then Style.dimmed.paint isColored " (disabled)" else "") ++ "\n"

/-- Settings after a line that says where they are from. -/
def configText (loaded : LocatedConfig) : String :=
  (match loaded.source with
    | some path => "# Loaded from " ++ path.text ++ "\n"
    | none => "# Built-in defaults\n") ++
    loaded.config.write

variable {m : Type → Type} [Monad m] [FileAccess m]

/-- Go on with the settings, if they can be loaded. -/
def withConfig (options : Options) (isColored : Bool) (next : LocatedConfig → m Outcome) :
    m Outcome := do
  match ← Config.load (options.configFile.map (⟨·⟩)) options.ignoresConfigFiles with
  | .ok loaded => next loaded
  | .error fault => return .ofConfigFault isColored fault

def runBuild (time : String) (isColored isQuiet : Bool) (loaded : LocatedConfig) : m Outcome := do
  match ← Build.build time loaded with
  | .error fault => return .ofBuildFault isColored "Build failed" fault
  | .ok summary =>
    return ⟨if summary.isSuccess then 0 else chapterFailures,
      if isQuiet then "" else summaryText isColored summary loaded.outputDir, none⟩

def runIndex (time : String) (isColored : Bool) (loaded : LocatedConfig) : m Outcome := do
  match ← Build.loadDocument loaded with
  | .error fault => return .ofBuildFault isColored "Indexing failed" fault
  | .ok (manifest, _, index) =>
    return .done ((Build.analysisJson time manifest index).pretty ++ "\n")

def runInit (isColored : Bool) (file : String) : m Outcome := do
  match ← Config.create ⟨file⟩ with
  | .ok () => return .done ("Created default configuration file: " ++ file ++ "\n")
  | .error fault => return .ofConfigFault isColored fault

/-- Run a command. -/
def run (setting : Setting) (options : Options) (command : Command) : m Outcome := do
  let isColored := options.color.isColored setting.isTerminal
  match command with
  | .build overrides =>
    withConfig options isColored fun loaded => do
      let here ← FileAccess.workingDirectory
      runBuild setting.time isColored options.isQuiet (overrides.apply here loaded)
  | .index overrides =>
    withConfig options isColored fun loaded => do
      let here ← FileAccess.workingDirectory
      runIndex setting.time isColored (overrides.apply here loaded)
  | .passes =>
    withConfig options isColored fun loaded =>
      return .done ("Passes, in execution order:\n" ++
        String.join (Pass.all.map (passLine isColored loaded.config)))
  | .init => runInit isColored Config.newFileName
  | .config true => return .done Config.default.write
  | .config false => withConfig options isColored fun loaded => return .done (configText loaded)
  | .schema => return .done (Config.schema.pretty ++ "\n")

/-- Run the command that arguments ask for. -/
def runArguments (setting : Setting) (args : List String) : m Outcome :=
  match ofArguments args with
  | .ok (options, command) => run setting options command
  | .error ending => return ending.outcome

end CommandLine
end CrossRef
