import CrossRef.CommandLine.Basic

/-!
Reading arguments: options, a command, and more options of that command. A command's options come
after it, and options of every command may stand on both sides, where those after the command go
first.
-/
namespace CrossRef
namespace CommandLine

/-- Why no command is run. -/
inductive Ending
  | usage
  | help
  | version
  deriving DecidableEq, Repr, Inhabited

inductive Flag
  | color
  | configFile
  | noConfig
  | verbose
  | quiet
  | manifest
  | chapters
  | out
  | templates
  | report
  | disable
  | defaults
  | help
  | version
  deriving DecidableEq, Repr, Inhabited

namespace Flag

def long : Flag → String
  | color => "color"
  | configFile => "config"
  | noConfig => "no-config"
  | verbose => "verbose"
  | quiet => "quiet"
  | manifest => "manifest"
  | chapters => "chapters"
  | out => "out"
  | templates => "templates"
  | report => "report"
  | disable => "disable"
  | defaults => "defaults"
  | help => "help"
  | version => "version"

/-- The letter of a flag that has one. -/
def short? : Flag → Option Char
  | verbose => some 'v'
  | quiet => some 'q'
  | out => some 'o'
  | help => some 'h'
  | version => some 'V'
  | _ => none

def takesValue : Flag → Bool
  | color | configFile | manifest | chapters | out | templates | report | disable => true
  | noConfig | verbose | quiet | defaults | help | version => false

/-- The flags of every command. -/
def general : List Flag := [color, configFile, noConfig, verbose, quiet, help]

end Flag

/-- The name of a command. -/
inductive Verb
  | build
  | index
  | passes
  | init
  | config
  | schema
  deriving DecidableEq, Repr, Inhabited

namespace Verb

def all : List Verb := [build, index, passes, init, config, schema]

def label : Verb → String
  | build => "build"
  | index => "index"
  | passes => "passes"
  | init => "init"
  | config => "config"
  | schema => "schema"

def ofLabel? (label : String) : Option Verb := all.find? fun verb => verb.label = label

/-- The flags that may follow a command. -/
def flags : Verb → List Flag
  | build => [.manifest, .chapters, .out, .templates, .report, .disable] ++ Flag.general
  | index => [.manifest, .chapters] ++ Flag.general
  | config => .defaults :: Flag.general
  | passes | init | schema => Flag.general

end Verb

/-- The flags that were given, with their values. -/
abbrev Given := List (Flag × String)

namespace Given

def has (given : Given) (flag : Flag) : Bool := (given.lookup flag).isSome

/-- Take one more flag. Each may be given once. -/
def add (given : Given) (flag : Flag) (value : String) : Except Ending Given :=
  match flag with
  | .help => .error .help
  | .version => .error .version
  | .color =>
    if given.has .color || (ColorChoice.ofLabel? value).isNone then .error .usage
    else .ok ((.color, value) :: given)
  | flag => if given.has flag then .error .usage else .ok ((flag, value) :: given)

/-- Verbose output excludes quiet output. -/
def isContradictory (given : Given) : Bool := given.has .verbose && given.has .quiet

end Given

/-- The form of an argument. -/
inductive Argument
  | word
  | endOfFlags
  | long (name : String) (value : Option String)
  | short (letters : List Char)
  deriving DecidableEq, Repr, Inhabited

def Argument.ofText (text : String) : Argument :=
  match text.toList with
  | ['-', '-'] => .endOfFlags
  | '-' :: '-' :: rest =>
    let name := rest.takeWhile (· ≠ '=')
    .long (String.ofList name)
      (match rest.drop name.length with
        | _ :: value => some (String.ofList value)
        | [] => none)
  | '-' :: c :: rest => .short (c :: rest)
  | _ => .word

/-- Take flags given by letters. The last one may still wait for its value. -/
def takeLetters (allowed : List Flag) : Given → List Char → Except Ending (Given × Option Flag)
  | given, [] => .ok (given, none)
  | given, c :: rest =>
    match allowed.find? fun flag => flag.short? = some c with
    | none => .error .usage
    | some flag =>
      if flag.takesValue then
        match rest with
        | [] => .ok (given, some flag)
        | '=' :: value => (given.add flag (String.ofList value)).map (·, none)
        | value => (given.add flag (String.ofList value)).map (·, none)
      else
        match given.add flag "" with
        | .error ending => .error ending
        | .ok given => takeLetters allowed given rest

/-- Take a flag given by its name. Without a value it may have to wait for one. -/
def takeNamed (allowed : List Flag) (given : Given) (name : String) (value : Option String) :
    Except Ending (Given × Option Flag) :=
  match allowed.find? fun flag => flag.long = name with
  | none => .error .usage
  | some flag =>
    match flag.takesValue, value with
    | true, some value => (given.add flag value).map (·, none)
    | true, none => .ok (given, some flag)
    | false, none => (given.add flag "").map (·, none)
    | false, some _ => .error .usage

/-- Take flags up to a word. `waiting` is a flag whose value comes next. -/
def takeFlags (allowed : List Flag) :
    Given → (waiting : Option Flag) → List String → Except Ending (Given × List String)
  | given, none, [] => .ok (given, [])
  | _, some _, [] => .error .usage
  | given, some flag, arg :: rest =>
    match Argument.ofText arg with
    | .word =>
      match given.add flag arg with
      | .ok given => takeFlags allowed given none rest
      | .error ending => .error ending
    | _ => .error .usage
  | given, none, arg :: rest =>
    match Argument.ofText arg with
    | .word => .ok (given, arg :: rest)
    | .endOfFlags => if rest.isEmpty then .ok (given, []) else .error .usage
    | .long name value =>
      match takeNamed allowed given name value with
      | .ok (given, waiting) => takeFlags allowed given waiting rest
      | .error ending => .error ending
    | .short letters =>
      match takeLetters allowed given letters with
      | .ok (given, waiting) => takeFlags allowed given waiting rest
      | .error ending => .error ending

/-- The options of every command, where `after` goes before `before`. -/
def optionsOf (before after : Given) : Options :=
  let value? (flag : Flag) : Option String := (after.lookup flag).or (before.lookup flag)
  { color := ((value? .color).bind ColorChoice.ofLabel?).getD .auto
    configFile := value? .configFile
    ignoresConfigFiles := (value? .noConfig).isSome
    isVerbose := (value? .verbose).isSome
    isQuiet := (value? .quiet).isSome }

def Verb.command (given : Given) : Verb → Command
  | build =>
    .build ⟨⟨given.lookup .manifest, given.lookup .chapters⟩, given.lookup .out,
      given.lookup .templates, given.lookup .report, given.lookup .disable⟩
  | index => .index ⟨given.lookup .manifest, given.lookup .chapters⟩
  | passes => .passes
  | init => .init
  | config => .config (given.has .defaults)
  | schema => .schema

/-- The word that asks for help on a command. -/
def helpWord : String := "help"

/-- Help is there for each command and for help itself. -/
def helpEnding : List String → Ending
  | [] => .help
  | [word] => if word = helpWord || (Verb.ofLabel? word).isSome then .help else .usage
  | _ => .usage

/-- The command that arguments ask for. -/
def ofArguments (args : List String) : Except Ending (Options × Command) := do
  let (before, rest) ← takeFlags (.version :: Flag.general) [] none args
  match rest with
  | [] => .error .usage
  | word :: rest =>
    if word = helpWord then .error (helpEnding rest)
    else match Verb.ofLabel? word with
      | none => .error .usage
      | some verb =>
        let (after, rest) ← takeFlags verb.flags [] none rest
        if !rest.isEmpty || after.isContradictory || before.isContradictory then .error .usage
        else .ok (optionsOf before after, verb.command after)

end CommandLine
end CrossRef
