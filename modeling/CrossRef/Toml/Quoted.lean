import CrossRef.Text.Digit
import CrossRef.Toml.Basic

/-!
Reading texts in quotes. Double quotes admit escapes and single quotes do not; three quotes in a row
open a text that may run over several lines.
-/
namespace CrossRef
namespace Toml

open Text

/-- Where the reader is in an escape. -/
inductive Escape
  | outside
  /-- After the backslash. -/
  | opened
  /-- This many digits are still to come, after digits with this value. -/
  | code (left : Nat) (value : Nat)
  /-- After a backslash at the end of a line. -/
  | lineEnd
  /-- At the start of the next line, where blanks are skipped. -/
  | nextLine
  deriving DecidableEq, Repr, Inhabited

namespace Escape

/-- The character of an escape with one letter. -/
def letter? (c : Char) : Option Char :=
  match c with
  | 'b' => some '\x08'
  | 't' => some '\t'
  | 'n' => some '\n'
  | 'f' => some '\x0c'
  | 'r' => some '\r'
  | 'e' => some '\x1b'
  | '"' => some '"'
  | '\\' => some '\\'
  | _ => none

/-- How many digits follow the letter. -/
def digits? (c : Char) : Option Nat :=
  match c with
  | 'x' => some 2
  | 'u' => some 4
  | 'U' => some 8
  | _ => none

def isLineChar (c : Char) : Bool := c = '\n' || c = '\r'

/-- Read a character that is not part of an escape. -/
def plain (isMultiline : Bool) (c : Char) : Option (Escape × List Char) :=
  if c = '\\' then some (opened, [])
  else if isTextChar c || (isMultiline && isLineChar c) then some (outside, [c])
  else none

/-- Read a character: where the reader is after it, and the text that it ends. -/
def step (isMultiline : Bool) (c : Char) : Escape → Option (Escape × List Char)
  | outside => plain isMultiline c
  | opened =>
    match letter? c, digits? c with
    | some x, _ => some (outside, [x])
    | none, some n => some (code n 0, [])
    | none, none =>
      if isMultiline && c = '\n' then some (nextLine, [])
      else if isMultiline && (isBlank c || c = '\r') then some (lineEnd, [])
      else none
  | code left value =>
    match hexDigit? c with
    | none => none
    | some d =>
      let value := value * 16 + d
      if 1 < left then some (code (left - 1) value, [])
      else if value.isValidChar then some (outside, [Char.ofNat value])
      else none
  | lineEnd =>
    if c = '\n' then some (nextLine, [])
    else if isBlank c || c = '\r' then some (lineEnd, [])
    else none
  | nextLine =>
    if isBlank c || isLineChar c then some (nextLine, []) else plain isMultiline c

/-- May the text end here? -/
def mayEnd : Escape → Bool
  | outside | nextLine => true
  | _ => false

end Escape

/-- A text as far as it was read, and what is left. -/
abbrev Reading := Option (List Char × List Char)

/-- Put characters before the text that was read. -/
def Reading.after (cs : List Char) (reading : Reading) : Reading :=
  reading.map fun (more, rest) => (cs ++ more, rest)

/-- Read the rest of a text in double quotes. -/
def basicLine? : Escape → List Char → Reading
  | _, [] => none
  | state, c :: rest =>
    if c = '"' && state.mayEnd then some ([], rest)
    else match state.step false c with
      | some (state, read) => Reading.after read (basicLine? state rest)
      | none => none

/-- Read the rest of a text in single quotes. -/
def literalLine? : List Char → Reading
  | [] => none
  | c :: rest =>
    if c = '\'' then some ([], rest)
    else if isTextChar c then Reading.after [c] (literalLine? rest)
    else none

/-- The end of a text with three quotes. Up to two more quotes before them belong to the text. -/
def closing? (quote : Char) (cs : List Char) : Reading :=
  let run := cs.takeWhile (· = quote)
  if run.length < 3 then none
  else
    let inside := min (run.length - 3) 2
    some (List.replicate inside quote, cs.drop (inside + 3))

/-- Does a carriage return stand here without a line feed after it? -/
def isLoneReturn (c : Char) (rest : List Char) : Bool := c = '\r' && rest.head? ≠ some '\n'

/-- Read the rest of a text in three double quotes. -/
def basicLines? : Escape → List Char → Reading
  | _, [] => none
  | state, c :: rest =>
    match (if state.mayEnd then closing? '"' (c :: rest) else none) with
    | some ending => some ending
    | none =>
      if isLoneReturn c rest then none
      else match state.step true c with
        | some (state, read) => Reading.after read (basicLines? state rest)
        | none => none

/-- Read the rest of a text in three single quotes. -/
def literalLines? : List Char → Reading
  | [] => none
  | c :: rest =>
    match closing? '\'' (c :: rest) with
    | some ending => some ending
    | none =>
      if isLoneReturn c rest then none
      else if isTextChar c || Escape.isLineChar c then Reading.after [c] (literalLines? rest)
      else none

/-- A line end right after the opening quotes is not part of the text. -/
def dropFirstLineEnd : List Char → List Char
  | '\n' :: rest => rest
  | '\r' :: '\n' :: rest => rest
  | cs => cs

/-- Read a text in quotes of one line. -/
def quotedLine? : List Char → Reading
  | '"' :: rest => basicLine? .outside rest
  | '\'' :: rest => literalLine? rest
  | _ => none

/-- Read a text in any quotes. -/
def quoted? : List Char → Reading
  | '"' :: '"' :: '"' :: rest => basicLines? .outside (dropFirstLineEnd rest)
  | '\'' :: '\'' :: '\'' :: rest => literalLines? (dropFirstLineEnd rest)
  | cs => quotedLine? cs

end Toml
end CrossRef
