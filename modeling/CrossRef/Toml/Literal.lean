import CrossRef.Text.Digit
import CrossRef.Toml.Basic

/-!
Values that are written without quotes: truth values, numbers and moments.
-/
namespace CrossRef
namespace Toml

open Text

/-- The digits of a run in which single underscores stand between digits. -/
def digitRun? (digit? : Char → Option Nat) (cs : List Char) : Option (List Char) :=
  let separated : Bool := cs.head? ≠ some '_' && cs.getLast? ≠ some '_' &&
    (cs.zip cs.tail).all fun (a, b) => a ≠ '_' || b ≠ '_'
  let digits := cs.filter (· ≠ '_')
  if separated && !digits.isEmpty && digits.all (fun c => (digit? c).isSome) then some digits
  else none

/-- The digits of a decimal number without needless zeros before it. -/
def wholeDigits? (cs : List Char) : Option (List Char) :=
  match digitRun? decimalDigit? cs with
  | some ('0' :: _ :: _) => none
  | digits => digits

/-- The literal without its sign, and whether that is a minus. -/
def splitSign : List Char → Bool × List Char
  | '-' :: rest => (true, rest)
  | '+' :: rest => (false, rest)
  | cs => (false, cs)

/-- Is the literal an integer of at most 128 bits? Only decimal ones have a sign. -/
def isInteger (cs : List Char) : Bool :=
  let fits (base : Nat) (digit? : Char → Option Nat) (digits : Option (List Char)) : Bool :=
    digits.any fun digits => numeral base digit? digits < Nat.pow 2 128
  match cs with
  | '0' :: 'x' :: rest => fits 16 hexDigit? (digitRun? hexDigit? rest)
  | '0' :: 'o' :: rest => fits 8 octalDigit? (digitRun? octalDigit? rest)
  | '0' :: 'b' :: rest => fits 2 binaryDigit? (digitRun? binaryDigit? rest)
  | _ =>
    let (isNegative, digits) := splitSign cs
    (wholeDigits? digits).any fun digits =>
      let n := numeral 10 decimalDigit? digits
      if isNegative then n ≤ Nat.pow 2 127 else n < Nat.pow 2 128

/-- The least number that is too large for a double: halfway between the largest one and the next. -/
def doubleLimit : Nat := Nat.pow 2 1024 - Nat.pow 2 970

/-- Is `digits * 10 ^ exponent` in the range of doubles? The last case is decided by the number of
digits before the point. -/
def isDouble (digits : List Char) (exponent : Int) : Bool :=
  let significant := digits.dropWhile (· = '0')
  let magnitude : Int := significant.length + exponent
  if significant.isEmpty || magnitude < 309 then true
  else if 309 < magnitude then false
  else
    let n := numeral 10 decimalDigit? significant
    if 0 ≤ exponent then n * Nat.pow 10 exponent.toNat < doubleLimit
    else n < doubleLimit * Nat.pow 10 (-exponent).toNat

/-- Is the literal a number with a fraction, an exponent or both, or an infinity, or no number? -/
def isFloat (cs : List Char) : Bool :=
  let (_, cs) := splitSign cs
  let isExponent (c : Char) : Bool := c = 'e' || c = 'E'
  if cs = "inf".toList || cs = "nan".toList then true
  else
    let mantissa := cs.takeWhile fun c => !isExponent c
    let whole := mantissa.takeWhile (· ≠ '.')
    let fraction : Option (List Char) := match mantissa.drop whole.length with
      | '.' :: places => digitRun? decimalDigit? places
      | _ => some []
    let exponent : Option Int := match cs.drop mantissa.length with
      | _ :: rest =>
        let (isNegative, digits) := splitSign rest
        (digitRun? decimalDigit? digits).map fun digits =>
          let n : Int := numeral 10 decimalDigit? digits
          if isNegative then -n else n
      | [] => some 0
    match wholeDigits? whole, fraction, exponent with
    | some digits, some places, some e =>
      whole.length < cs.length && isDouble (digits ++ places) (e - places.length)
    | _, _, _ => false

/-- A number of this many digits, and what is left. -/
def fixedDigits? (count : Nat) (cs : List Char) : Option (Nat × List Char) :=
  let digits := cs.take count
  if digits.length = count && digits.all isAsciiDigit then
    some (numeral 10 decimalDigit? digits, cs.drop count)
  else none

def isLeapYear (year : Nat) : Bool := year % 4 = 0 && (year % 100 ≠ 0 || year % 400 = 0)

def daysIn (year month : Nat) : Nat :=
  if month = 2 then if isLeapYear year then 29 else 28
  else if month = 4 || month = 6 || month = 9 || month = 11 then 30
  else 31

/-- Read a date, and give what is left. -/
def date? (cs : List Char) : Option (List Char) := do
  let (year, cs) ← fixedDigits? 4 cs
  let '-' :: cs := cs | none
  let (month, cs) ← fixedDigits? 2 cs
  let '-' :: cs := cs | none
  let (day, cs) ← fixedDigits? 2 cs
  if 1 ≤ month && month ≤ 12 && 1 ≤ day && day ≤ daysIn year month then some cs else none

/-- Read a time of day, with or without seconds, and give what is left. -/
def time? (cs : List Char) : Option (List Char) := do
  let (hour, cs) ← fixedDigits? 2 cs
  let ':' :: cs := cs | none
  let (minute, cs) ← fixedDigits? 2 cs
  if 23 < hour || 59 < minute then none
  match cs with
  | ':' :: cs =>
    let (second, cs) ← fixedDigits? 2 cs
    if 60 < second then none
    match cs with
    | '.' :: cs =>
      let places := cs.takeWhile isAsciiDigit
      if places.isEmpty then none else some (cs.drop places.length)
    | cs => some cs
  | cs => some cs

/-- Is this the distance of a local time from universal time? -/
def isOffset : List Char → Bool
  | ['Z'] | ['z'] => true
  | sign :: cs =>
    (sign = '+' || sign = '-') &&
      match fixedDigits? 2 cs with
      | some (hours, ':' :: cs) =>
        match fixedDigits? 2 cs with
        | some (minutes, []) => minutes ≤ 59 && hours * 60 + minutes ≤ 24 * 60
        | _ => false
      | _ => false
  | [] => false

/-- Does the character stand between a date and a time? -/
def isTimeMark (c : Char) : Bool := c = 'T' || c = 't' || c = ' '

/-- Is the literal a date, a time of day, or a date and a time with or without an offset? -/
def isMoment (cs : List Char) : Bool :=
  match date? cs with
  | none => time? cs = some []
  | some [] => true
  | some (mark :: cs) =>
    isTimeMark mark &&
      match time? cs with
      | some rest => rest.isEmpty || isOffset rest
      | none => false

/-- The value of a literal. -/
def literal? (cs : List Char) : Option Toml :=
  if cs = "true".toList then some (.bool true)
  else if cs = "false".toList then some (.bool false)
  else if isInteger cs || isFloat cs then some (.number (String.ofList cs))
  else if isMoment cs then some (.moment (String.ofList cs))
  else none

/-- May the character stand in a literal? -/
def isLiteralChar (c : Char) : Bool :=
  isAsciiAlphanumeric c || c = '+' || c = '-' || c = '_' || c = '.' || c = ':'

/-- The characters of a literal, and what is left. After a date, a blank and a time still belong to
it. -/
def splitLiteral (cs : List Char) : List Char × List Char :=
  let first := cs.takeWhile isLiteralChar
  let rest := cs.drop first.length
  match date? first, rest with
  | some [], ' ' :: c :: more =>
    if isAsciiDigit c then
      let time := (c :: more).takeWhile isLiteralChar
      (first ++ ' ' :: time, (c :: more).drop time.length)
    else (first, rest)
  | _, _ => (first, rest)

end Toml
end CrossRef
