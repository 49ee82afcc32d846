import CrossRef.Json.Basic

/-!
Writing JSON text, in one line or with one item a line. Half of a surrogate pair is written as the
replacement character.
-/
namespace CrossRef
namespace Json

def hexLetter (n : Nat) : Char := if n < 10 then Char.ofNat (48 + n) else Char.ofNat (87 + n)

/-- A character inside quotes. -/
def quotedChar (c : Char) : List Char :=
  if c = '"' then ['\\', '"']
  else if c = '\\' then ['\\', '\\']
  else if c = '\x08' then ['\\', 'b']
  else if c = '\x0c' then ['\\', 'f']
  else if c = '\n' then ['\\', 'n']
  else if c = '\r' then ['\\', 'r']
  else if c = '\t' then ['\\', 't']
  else if c.toNat < 0x20 then
    ['\\', 'u', '0', '0', hexLetter (c.toNat / 16), hexLetter (c.toNat % 16)]
  else [c]

def quote (s : String) : String :=
  String.ofList ('"' :: s.toList.flatMap quotedChar ++ ['"'])

/-- The pieces with a comma between each two. -/
def commaJoin (pieces : List (List String)) : List String :=
  match pieces with
  | [] => []
  | piece :: rest => piece ++ rest.flatMap fun piece => "," :: piece

mutual

/-- The pieces of a value in one line. -/
def compactPieces : Json → List String
  | .null => ["null"]
  | .bool true => ["true"]
  | .bool false => ["false"]
  | .natural n => [toString n]
  | .number literal => [literal]
  | .text s => [quote s]
  | .unpaired => [quote "\ufffd"]
  | .array items => "[" :: commaJoin (compactItems items) ++ ["]"]
  | .object members => "\x7b" :: commaJoin (compactMembers members) ++ ["\x7d"]

def compactItems : List Json → List (List String)
  | [] => []
  | item :: rest => compactPieces item :: compactItems rest

def compactMembers : List (Option String × Json) → List (List String)
  | [] => []
  | (name, value) :: rest =>
    (quote (name.getD "\ufffd") :: ":" :: compactPieces value) :: compactMembers rest

end

/-- The text of a value in one line. -/
def compact (value : Json) : String := String.join (compactPieces value)

def indent (depth : Nat) : String := String.ofList (List.replicate (2 * depth) ' ')

/-- Pieces on lines of their own between brackets. -/
def block (opening closing : String) (depth : Nat) (pieces : List (List String)) : List String :=
  match pieces with
  | [] => [opening, closing]
  | piece :: rest =>
    opening :: "\n" :: indent (depth + 1) :: piece ++
      rest.flatMap (fun piece => ",\n" :: indent (depth + 1) :: piece) ++
      ["\n", indent depth, closing]

mutual

/-- The pieces of a value at a depth, with one item a line. -/
def prettyPieces : Nat → Json → List String
  | depth, .array items => block "[" "]" depth (prettyItems (depth + 1) items)
  | depth, .object members => block "\x7b" "\x7d" depth (prettyMembers (depth + 1) members)
  | _, .null => ["null"]
  | _, .bool true => ["true"]
  | _, .bool false => ["false"]
  | _, .natural n => [toString n]
  | _, .number literal => [literal]
  | _, .text s => [quote s]
  | _, .unpaired => [quote "\ufffd"]

def prettyItems : Nat → List Json → List (List String)
  | _, [] => []
  | depth, item :: rest => prettyPieces depth item :: prettyItems depth rest

def prettyMembers : Nat → List (Option String × Json) → List (List String)
  | _, [] => []
  | depth, (name, value) :: rest =>
    (quote (name.getD "\ufffd") :: ": " :: prettyPieces depth value) :: prettyMembers depth rest

end

/-- The text of a value with one item a line, indented by two blanks a level. -/
def pretty (value : Json) : String := String.join (prettyPieces 0 value)

end Json
end CrossRef
