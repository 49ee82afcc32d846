import CrossRef.Toml.Basic

/-!
Writing TOML: headers, and keys with texts, lists of texts and truth values. A text is written
without escapes where some kind of quotes allows that.
-/
namespace CrossRef
namespace Toml

/-- The length of the longest run of a character. `run` is the length of the run before the rest, and
`longest` that of the longest so far. -/
def longestRunFrom (c : Char) : (run longest : Nat) → List Char → Nat
  | _, longest, [] => longest
  | run, longest, x :: rest =>
    if x = c then longestRunFrom c (run + 1) (max longest (run + 1)) rest
    else longestRunFrom c 0 longest rest

def longestRun (c : Char) (cs : List Char) : Nat := longestRunFrom c 0 0 cs

/-- A control character other than a tab and a line feed. -/
def isControl (c : Char) : Bool := (c < ' ' && c ≠ '\t' && c ≠ '\n') || c = '\x7f'

/-- The ways to put a text into quotes. -/
inductive Quotes
  | basic
  | literal
  | basicLines
  | literalLines
  deriving DecidableEq, Repr, Inhabited

/-- The first quotes in the order basic, literal, over several lines that hold the text without
escapes; failing all, double quotes with escapes. A tab does not count. -/
def Quotes.for (cs : List Char) : Quotes :=
  let hasControl := cs.any isControl
  let hasLines := cs.contains '\n'
  let isPlain := !hasControl && !cs.contains '\\'
  if isPlain && !hasLines && !cs.contains '"' then .basic
  else if !hasControl && !hasLines && !cs.contains '\'' then .literal
  else if isPlain && longestRun '"' cs ≤ 2 then .basicLines
  else if !hasControl && longestRun '\'' cs ≤ 2 then .literalLines
  else if hasLines then .basicLines
  else .basic

def hexCapital (n : Nat) : Char := if n < 10 then Char.ofNat (48 + n) else Char.ofNat (55 + n)

/-- The escape of a character that cannot stand for itself. -/
def escaped? (isMultiline : Bool) (c : Char) : Option (List Char) :=
  if c = '\x08' then some ['\\', 'b']
  else if c = '\t' then some ['\\', 't']
  else if c = '\n' then if isMultiline then none else some ['\\', 'n']
  else if c = '\x0c' then some ['\\', 'f']
  else if c = '\r' then some ['\\', 'r']
  else if c = '\\' then some ['\\', '\\']
  else if isControl c then
    some ['\\', 'u', '0', '0', hexCapital (c.toNat / 16), hexCapital (c.toNat % 16)]
  else none

/-- The text with escapes. `run` counts the quotes right before the rest: in a text of one line every
quote is escaped, in others the third of a run. -/
def escape (isMultiline : Bool) : (run : Nat) → List Char → List Char
  | _, [] => []
  | run, c :: rest =>
    if c = '"' then
      if isMultiline && run < 2 then '"' :: escape isMultiline (run + 1) rest
      else '\\' :: '"' :: escape isMultiline 0 rest
    else match escaped? isMultiline c with
      | some e => e ++ escape isMultiline 0 rest
      | none => c :: escape isMultiline 0 rest

/-- Three quotes, and a line end if the text has one. -/
def opening (quote : Char) (cs : List Char) : List Char :=
  List.replicate 3 quote ++ if cs.contains '\n' then ['\n'] else []

/-- A text in quotes. -/
def quoteChars (cs : List Char) : List Char :=
  match Quotes.for cs with
  | .basic => '"' :: escape false 0 cs ++ ['"']
  | .literal => '\'' :: cs ++ ['\'']
  | .basicLines => opening '"' cs ++ escape true 0 cs ++ List.replicate 3 '"'
  | .literalLines => opening '\'' cs ++ cs ++ List.replicate 3 '\''

def quote (s : String) : String := String.ofList (quoteChars s.toList)

/-- A list of texts: one text stands in the line, and several stand on lines of their own. -/
def quoteAll : List String → String
  | [] => "[]"
  | [s] => "[" ++ quote s ++ "]"
  | texts => "[\n" ++ String.join (texts.map fun s => "    " ++ quote s ++ ",\n") ++ "]"

def headerLine (name : String) : String := "[" ++ name ++ "]\n"

def assignmentLine (key value : String) : String := key ++ " = " ++ value ++ "\n"

end Toml
end CrossRef
