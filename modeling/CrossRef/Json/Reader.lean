import CrossRef.Json.Basic
import CrossRef.Text.Digit

/-!
Reading JSON text. The reader accepts exactly one value with blanks around it.
-/
namespace CrossRef
namespace Json

open Text

def isBlank (c : Char) : Bool := c = ' ' || c = '\n' || c = '\t' || c = '\r'

def skipBlanks (cs : List Char) : List Char := cs.dropWhile isBlank

/-- Four hexadecimal digits as a number, and what is left. -/
def hexQuad? : List Char → Option (Nat × List Char)
  | a :: b :: c :: d :: rest =>
    match hexDigit? a, hexDigit? b, hexDigit? c, hexDigit? d with
    | some x, some y, some z, some w => some (((x * 16 + y) * 16 + z) * 16 + w, rest)
    | _, _, _, _ => none
  | _ => none

/-- The character of an escape with one letter. -/
def escapedChar? (c : Char) : Option Char :=
  match c with
  | '"' => some '"'
  | '\\' => some '\\'
  | '/' => some '/'
  | 'b' => some '\x08'
  | 'f' => some '\x0c'
  | 'n' => some '\n'
  | 'r' => some '\r'
  | 't' => some '\t'
  | _ => none

/-- The characters of a text as far as they were read: `none` stands for half a pair. -/
abbrev Units := List (Option Char)

def isHighSurrogate (n : Nat) : Bool := 0xd800 ≤ n && n ≤ 0xdbff

def isLowSurrogate (n : Nat) : Bool := 0xdc00 ≤ n && n ≤ 0xdfff

/-- Read the rest of a text up to its closing quote. `high` is the first half of a pair that was
just read. -/
def textUnits : Nat → Option Nat → List Char → Option (Units × List Char)
  | 0, _, _ => none
  | _, _, [] => none
  | fuel + 1, high, c :: rest =>
    let flushed : Units := if high.isSome then [none] else []
    let go (units : Units) (high : Option Nat) (rest : List Char) : Option (Units × List Char) :=
      match textUnits fuel high rest with
      | some (more, left) => some (units ++ more, left)
      | none => none
    if c = '"' then some (flushed, rest)
    else if c = '\\' then
      match rest with
      | [] => none
      | e :: rest =>
        if e = 'u' then
          match hexQuad? rest with
          | none => none
          | some (n, rest) =>
            match high with
            | some h =>
              if isLowSurrogate n then
                go [some (Char.ofNat (0x10000 + (h - 0xd800) * 0x400 + (n - 0xdc00)))] none rest
              else if isHighSurrogate n then go [none] (some n) rest
              else go [none, some (Char.ofNat n)] none rest
            | none =>
              if isHighSurrogate n then go [] (some n) rest
              else if isLowSurrogate n then go [none] none rest
              else go [some (Char.ofNat n)] none rest
        else match escapedChar? e with
          | some x => go (flushed ++ [some x]) none rest
          | none => none
    else if c.toNat < 0x20 then none
    else go (flushed ++ [some c]) none rest

/-- The text that units stand for, if they hold no half pairs. -/
def wholeText? (units : Units) : Option String := (units.mapM id).map String.ofList

/-- Read a text after its opening quote. -/
def text? (cs : List Char) : Option (Option String × List Char) :=
  (textUnits (cs.length + 1) none cs).map fun (units, rest) => (wholeText? units, rest)

/-- The value of a text that was read. -/
def ofText? : Option String → Json
  | some s => .text s
  | none => .unpaired

/-- Read a number: its integer digits without needless zeros, a fraction and an exponent. -/
def number? (all : List Char) : Option (Json × List Char) :=
  let isNegative := all.head? = some '-'
  let cs := if isNegative then all.tail else all
  let digits := cs.takeWhile isAsciiDigit
  let afterDigits := cs.drop digits.length
  if digits.isEmpty || (digits.head? = some '0' && 1 < digits.length) then none
  else
    let fraction? : Option (Bool × List Char) :=
      match afterDigits with
      | '.' :: rest =>
        let places := rest.takeWhile isAsciiDigit
        if places.isEmpty then none else some (true, rest.drop places.length)
      | rest => some (false, rest)
    match fraction? with
    | none => none
    | some (hasFraction, rest) =>
      let exponent? : Option (Bool × List Char) :=
        match rest with
        | e :: after =>
          if e = 'e' || e = 'E' then
            let after := match after with
              | sign :: more => if sign = '+' || sign = '-' then more else after
              | [] => after
            let places := after.takeWhile isAsciiDigit
            if places.isEmpty then none else some (true, after.drop places.length)
          else some (false, rest)
        | [] => some (false, rest)
      match exponent? with
      | none => none
      | some (hasExponent, rest) =>
        if isNegative || hasFraction || hasExponent then
          some (.number (String.ofList (all.take (all.length - rest.length))), rest)
        else some (.natural (numeral 10 decimalDigit? digits), rest)

/-- Read the letters of a word. -/
def word? (letters : List Char) (value : Json) (cs : List Char) : Option (Json × List Char) :=
  if cs.take letters.length = letters then some (value, cs.drop letters.length) else none

mutual

/-- Read a value that starts here. -/
def value? : Nat → List Char → Option (Json × List Char)
  | 0, _ => none
  | _, [] => none
  | fuel + 1, c :: rest =>
    if c = '\x7b' then
      match skipBlanks rest with
      | '\x7d' :: rest => some (.object [], rest)
      | rest => (members? fuel rest).map fun (members, rest) => (.object members, rest)
    else if c = '[' then
      match skipBlanks rest with
      | ']' :: rest => some (.array [], rest)
      | rest => (items? fuel rest).map fun (items, rest) => (.array items, rest)
    else if c = '"' then
      (text? rest).map fun (s, rest) => (ofText? s, rest)
    else if c = 't' then word? "true".toList (.bool true) (c :: rest)
    else if c = 'f' then word? "false".toList (.bool false) (c :: rest)
    else if c = 'n' then word? "null".toList .null (c :: rest)
    else number? (c :: rest)

/-- Read the items of an array that has at least one. -/
def items? : Nat → List Char → Option (List Json × List Char)
  | 0, _ => none
  | fuel + 1, cs =>
    match value? fuel (skipBlanks cs) with
    | none => none
    | some (item, rest) =>
      match skipBlanks rest with
      | ',' :: rest => (items? fuel rest).map fun (items, rest) => (item :: items, rest)
      | ']' :: rest => some ([item], rest)
      | _ => none

/-- Read the members of an object that has at least one. -/
def members? : Nat → List Char → Option (List (Option String × Json) × List Char)
  | 0, _ => none
  | fuel + 1, cs =>
    match skipBlanks cs with
    | '"' :: rest =>
      match text? rest with
      | none => none
      | some (name, rest) =>
        match skipBlanks rest with
        | ':' :: rest =>
          match value? fuel (skipBlanks rest) with
          | none => none
          | some (value, rest) =>
            match skipBlanks rest with
            | ',' :: rest =>
              (members? fuel rest).map fun (members, rest) => ((name, value) :: members, rest)
            | '\x7d' :: rest => some ([(name, value)], rest)
            | _ => none
        | _ => none
    | _ => none

end

/-- The value a text is written for. -/
def read? (written : String) : Option Json :=
  let cs := written.toList
  match value? (cs.length + 1) (skipBlanks cs) with
  | some (value, rest) => if (skipBlanks rest).isEmpty then some value else none
  | none => none

end Json
end CrossRef
