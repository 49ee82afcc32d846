import CrossRef.Toml.Draft
import CrossRef.Toml.Literal
import CrossRef.Toml.Quoted

/-!
Reading TOML documents: lines with keys and values under headers.
-/
namespace CrossRef
namespace Toml

open Text

/-- Skip blanks, line ends and comments. -/
def skipLines? : (inComment : Bool) → List Char → Option (List Char)
  | _, [] => some []
  | _, '\n' :: rest => skipLines? false rest
  | _, '\r' :: '\n' :: rest => skipLines? false rest
  | true, c :: rest => if isTextChar c then skipLines? true rest else none
  | false, c :: rest =>
    if c = '#' then skipLines? true rest
    else if isBlank c then skipLines? false rest
    else some (c :: rest)

/-- The rest of a line after a statement holds at most a comment. -/
def endOfLine? (cs : List Char) : Option (List Char) :=
  match skipBlanks cs with
  | [] => some []
  | '#' :: rest => skipLines? true rest
  | '\n' :: rest => skipLines? false rest
  | '\r' :: '\n' :: rest => skipLines? false rest
  | _ => none

def isBareKeyChar (c : Char) : Bool := isAsciiAlphanumeric c || c = '_' || c = '-'

/-- Read a name between the dots of a key. -/
def name? (cs : List Char) : Option (String × List Char) :=
  match cs with
  | '"' :: _ | '\'' :: _ => (quotedLine? cs).map fun (name, rest) => (String.ofList name, rest)
  | _ =>
    let name := cs.takeWhile isBareKeyChar
    if name.isEmpty then none else some (String.ofList name, cs.drop name.length)

/-- Read the names of a key after the first. The path holds the names before `name`. -/
def keyFrom? : Nat → List String → String → List Char → Option (KeyPath × List Char)
  | 0, _, _, _ => none
  | fuel + 1, path, name, cs =>
    match skipBlanks cs with
    | '.' :: rest =>
      match name? (skipBlanks rest) with
      | some (next, rest) => keyFrom? fuel (path ++ [name]) next rest
      | none => none
    | rest => some (⟨path, name⟩, rest)

/-- Read a key and the blanks after it. -/
def key? (cs : List Char) : Option (KeyPath × List Char) :=
  match name? (skipBlanks cs) with
  | some (name, rest) => keyFrom? (rest.length + 1) [] name rest
  | none => none

/-- Read a key and a value. -/
def pair? (value? : List Char → Option (Toml × List Char)) (cs : List Char) :
    Option ((KeyPath × Toml) × List Char) :=
  match key? cs with
  | some (key, '=' :: rest) =>
    (value? (skipBlanks rest)).map fun (value, rest) => ((key, value), rest)
  | _ => none

/-- Read items with commas between them up to a closing bracket. A comma may follow the last. -/
def listed? (item? : List Char → Option (α × List Char)) (bracket : Char) :
    Nat → List Char → Option (List α × List Char)
  | 0, _ => none
  | fuel + 1, cs =>
    match skipLines? false cs with
    | none | some [] => none
    | some (c :: rest) =>
      if c = bracket then some ([], rest)
      else match item? (c :: rest) with
        | none => none
        | some (item, rest) =>
          match skipLines? false rest with
          | none | some [] => none
          | some (d :: rest) =>
            if d = bracket then some ([item], rest)
            else if d = ',' then
              (listed? item? bracket fuel rest).map fun (items, rest) => (item :: items, rest)
            else none

/-- The table of an inline table's pairs. -/
def inlineTable? (pairs : List (KeyPath × Toml)) : Option Toml :=
  ofStatements? (pairs.map fun (key, value) => .assignment key value)

/-- Read a value. Arrays and inline tables may be nested up to the given depth. -/
def value? (depth : Nat) (cs : List Char) : Option (Toml × List Char) :=
  match cs with
  | '"' :: _ | '\'' :: _ => (quoted? cs).map fun (read, rest) => (.text (String.ofList read), rest)
  | '[' :: rest =>
    match depth with
    | 0 => none
    | depth + 1 =>
      (listed? (value? depth) ']' (rest.length + 1) rest).map fun (items, rest) =>
        (.array items, rest)
  | '\x7b' :: rest =>
    match depth with
    | 0 => none
    | depth + 1 =>
      match listed? (pair? (value? depth)) '\x7d' (rest.length + 1) rest with
      | some (pairs, rest) => (inlineTable? pairs).map fun value => (value, rest)
      | none => none
  | _ =>
    let (literal, rest) := splitLiteral cs
    (literal? literal).map fun value => (value, rest)

/-- How deep arrays and inline tables may be nested. -/
def maxDepth : Nat := 80

/-- Read a header after its first bracket. -/
def header? : List Char → Option (Statement × List Char)
  | '[' :: rest =>
    match key? rest with
    | some (key, ']' :: ']' :: rest) => some (.nextHeader key, rest)
    | _ => none
  | rest =>
    match key? rest with
    | some (key, ']' :: rest) => some (.header key, rest)
    | _ => none

/-- Read a statement. -/
def statement? : List Char → Option (Statement × List Char)
  | '[' :: rest => header? rest
  | cs => (pair? (value? maxDepth) cs).map fun ((key, value), rest) => (.assignment key value, rest)

/-- Read statements, each on lines of its own. -/
def statements? : Nat → List Char → Option (List Statement)
  | _, [] => some []
  | 0, _ => none
  | fuel + 1, cs =>
    match statement? cs with
    | none => none
    | some (statement, rest) =>
      match endOfLine? rest with
      | none => none
      | some rest => (statements? fuel rest).map (statement :: ·)

/-- A byte order mark at the start is not part of the document. -/
def dropMark : List Char → List Char
  | '\ufeff' :: rest => rest
  | cs => cs

/-- The table that a document stands for. -/
def read? (document : String) : Option Toml := do
  let cs ← skipLines? false (dropMark document.toList)
  ofStatements? (← statements? (cs.length + 1) cs)

end Toml
end CrossRef
