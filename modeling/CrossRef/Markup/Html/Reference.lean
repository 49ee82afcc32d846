import CrossRef.Markup.Html.ReferenceNames
import CrossRef.Text.Digit

/-!
Character references. `expand` replaces every reference in a text by what it stands for. A name
without its semicolon counts only if it is one of `bareNames`, and inside an attribute value only
if neither `=` nor a letter or digit follows it.
-/
namespace CrossRef
namespace Markup
namespace Html

open Text

def replacementChar : Char := '\ufffd'

/-- What the codes 0x80 to 0x9F stand for; the five unassigned ones stand for themselves. -/
def windowsChars : List Char :=
  ['\u20ac', '\u0081', '\u201a', '\u0192', '\u201e', '\u2026', '\u2020', '\u2021',
    '\u02c6', '\u2030', '\u0160', '\u2039', '\u0152', '\u008d', '\u017d', '\u008f',
    '\u0090', '\u2018', '\u2019', '\u201c', '\u201d', '\u2022', '\u2013', '\u2014',
    '\u02dc', '\u2122', '\u0161', '\u203a', '\u0153', '\u009d', '\u017e', '\u0178']

/-- The character a numeric reference stands for. -/
def charOfCode (n : Nat) : Char :=
  if n = 0 ∨ n > 0x10ffff ∨ (0xd800 ≤ n ∧ n ≤ 0xdfff) then replacementChar
  else if 0x80 ≤ n ∧ n ≤ 0x9f then (windowsChars[n - 0x80]?).getD replacementChar
  else Char.ofNat n

/-- A reference that was read: what it stands for, and how many characters after the ampersand
belong to it. -/
structure Reading where
  chars : List Char
  length : Nat
  deriving DecidableEq, Repr, Inhabited

/-- Digits, with the semicolon that may follow them. -/
def numericDigits (base : Nat) (digit? : Char → Option Nat) (before : Nat) (cs : List Char) :
    Option Reading :=
  let digits := cs.takeWhile fun c => (digit? c).isSome
  if digits.isEmpty then none
  else
    let closed := (cs.drop digits.length).head? = some ';'
    some ⟨[charOfCode (numeral base digit? digits)],
      before + digits.length + if closed then 1 else 0⟩

/-- A reference by number; the text starts after the number sign. -/
def numeric? : List Char → Option Reading
  | 'x' :: rest => numericDigits 16 hexDigit? 2 rest
  | 'X' :: rest => numericDigits 16 hexDigit? 2 rest
  | cs => numericDigits 10 decimalDigit? 1 cs

def codePoints (codes : String) : List Char :=
  (codes.splitOn "+").map fun code => charOfCode (numeral 16 hexDigit? code.toList)

/-- What a name in `closedNames` stands for. -/
def closedName? (name : String) : Option (List Char) :=
  (closedNames.flatMap (·.splitOn " ")).findSome? fun item =>
    match item.splitOn "=" with
    | [n, codes] => if n = name then some (codePoints codes) else none
    | _ => none

/-- What a name with its semicolon stands for. -/
def namedChars? (name : String) : Option (List Char) :=
  match bareNames.lookup name with
  | some c => some [c]
  | none => closedName? name

/-- The longest start of the run of at most `n` characters that is one of `bareNames`. -/
def barePart? (run : List Char) : Nat → Option Reading
  | 0 => none
  | n + 1 =>
    match bareNames.lookup (String.ofList (run.take (n + 1))) with
    | some c => some ⟨[c], n + 1⟩
    | none => barePart? run n

/-- The longest of `bareNames` has six letters. -/
def longestBareName : Nat := 6

/-- A reference by name. -/
def named? (inValue : Bool) (cs : List Char) : Option Reading :=
  let run := cs.takeWhile isAsciiAlphanumeric
  let next := (cs.drop run.length).head?
  let closed := if next = some ';' then namedChars? (String.ofList run) else none
  match closed with
  | some chars => some ⟨chars, run.length + 1⟩
  | none =>
    match barePart? run (min run.length longestBareName) with
    | none => none
    | some reading =>
      let after := (cs.drop reading.length).head?
      if inValue && after.any fun c => c = '=' || isAsciiAlphanumeric c then none
      else some reading

/-- The reference after an ampersand, if there is one. -/
def reference? (inValue : Bool) : List Char → Option Reading
  | '#' :: rest => numeric? rest
  | cs => named? inValue cs

/-- Replace the references, after skipping the characters of one just read. -/
def expandFrom (inValue : Bool) : Nat → List Char → List Char
  | _, [] => []
  | skip + 1, _ :: rest => expandFrom inValue skip rest
  | 0, c :: rest =>
    if c = '&' then
      match reference? inValue rest with
      | some reading => reading.chars ++ expandFrom inValue reading.length rest
      | none => c :: expandFrom inValue 0 rest
    else c :: expandFrom inValue 0 rest

/-- The text with its character references replaced. -/
def expand (inValue : Bool) (cs : List Char) : List Char := expandFrom inValue 0 cs

end Html
end Markup
end CrossRef
