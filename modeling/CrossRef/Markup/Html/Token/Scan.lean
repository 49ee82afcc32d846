import CrossRef.Markup.Html.Token
import CrossRef.Markup.Html.Reference

/-!
Scanning: the first token of a text and what is left after it. Every malformed text has a reading;
a tag that the text breaks off in is dropped with all that it holds.
-/
namespace CrossRef
namespace Markup
namespace Html

open Text

/-- The blank characters that separate the parts of a tag. -/
def isTagBlank (c : Char) : Bool := c = ' ' || c = '\t' || c = '\n' || c = '\x0c'

/-- A null character is shown by the replacement character. -/
def showNull (c : Char) : Char := if c = '\x00' then replacementChar else c

/-- Line ends become single line feeds. -/
def normalizeLines : List Char → List Char
  | [] => []
  | '\r' :: '\n' :: rest => '\n' :: normalizeLines rest
  | '\r' :: rest => '\n' :: normalizeLines rest
  | c :: rest => c :: normalizeLines rest

/-- The place inside a tag, after its name. Names and values are held in reverse. -/
inductive TagPlace
  | gap
  | name (name : List Char)
  | afterName (name : List Char)
  | beforeValue (name : List Char)
  | quoted (quote : Char) (name value : List Char)
  | unquoted (name value : List Char)
  | slash
  deriving DecidableEq, Repr, Inhabited

/-- The end of a tag that was read. -/
structure TagEnd where
  attributes : List (String × String)
  isSelfClosing : Bool
  rest : List Char
  deriving DecidableEq, Repr, Inhabited

/-- Add an attribute, unless one of the same name stands before it. -/
def addAttribute (attributes : List (String × String)) (name value : List Char) :
    List (String × String) :=
  let label := String.ofList name.reverse
  if (attributes.lookup label).isSome then attributes
  else attributes ++ [(label, String.ofList (expand true (value.reverse.map showNull)))]

def nameChar (c : Char) : Char := showNull (asciiLower c)

/-- Read the attributes of a tag up to its end. -/
def scanAttributes : TagPlace → List (String × String) → List Char → Option TagEnd
  | _, _, [] => none
  | .gap, done, c :: rest =>
    if isTagBlank c then scanAttributes .gap done rest
    else if c = '/' then scanAttributes .slash done rest
    else if c = '>' then some ⟨done, false, rest⟩
    else scanAttributes (.name [nameChar c]) done rest
  | .name name, done, c :: rest =>
    if isTagBlank c then scanAttributes (.afterName name) done rest
    else if c = '/' then scanAttributes .slash (addAttribute done name []) rest
    else if c = '=' then scanAttributes (.beforeValue name) done rest
    else if c = '>' then some ⟨addAttribute done name [], false, rest⟩
    else scanAttributes (.name (nameChar c :: name)) done rest
  | .afterName name, done, c :: rest =>
    if isTagBlank c then scanAttributes (.afterName name) done rest
    else if c = '/' then scanAttributes .slash (addAttribute done name []) rest
    else if c = '=' then scanAttributes (.beforeValue name) done rest
    else if c = '>' then some ⟨addAttribute done name [], false, rest⟩
    else scanAttributes (.name [nameChar c]) (addAttribute done name []) rest
  | .beforeValue name, done, c :: rest =>
    if isTagBlank c then scanAttributes (.beforeValue name) done rest
    else if c = '"' ∨ c = '\'' then scanAttributes (.quoted c name []) done rest
    else if c = '>' then some ⟨addAttribute done name [], false, rest⟩
    else scanAttributes (.unquoted name [c]) done rest
  | .quoted quote name value, done, c :: rest =>
    if c = quote then scanAttributes .gap (addAttribute done name value) rest
    else scanAttributes (.quoted quote name (c :: value)) done rest
  | .unquoted name value, done, c :: rest =>
    if isTagBlank c then scanAttributes .gap (addAttribute done name value) rest
    else if c = '>' then some ⟨addAttribute done name value, false, rest⟩
    else scanAttributes (.unquoted name (c :: value)) done rest
  | .slash, done, c :: rest =>
    if c = '>' then some ⟨done, true, rest⟩
    else if isTagBlank c then scanAttributes .gap done rest
    else if c = '/' then scanAttributes .slash done rest
    else scanAttributes (.name [nameChar c]) done rest

def endsTagName (c : Char) : Bool := isTagBlank c || c = '/' || c = '>'

/-- Read a tag from its name on. -/
def scanTag (cs : List Char) : Option (Tag × List Char) :=
  let name := cs.takeWhile fun c => !endsTagName c
  match scanAttributes .gap [] (cs.drop name.length) with
  | some tagEnd =>
    some (⟨String.ofList (name.map nameChar), tagEnd.attributes, tagEnd.isSelfClosing⟩, tagEnd.rest)
  | none => none

/-- The text of a comment after its opening, and what is left after it. -/
def scanCommentBody : List Char → List Char × List Char
  | [] => ([], [])
  | ['-'] => ([], [])
  | ['-', '-'] => ([], [])
  | ['-', '-', '!'] => ([], [])
  | '-' :: '-' :: '>' :: rest => ([], rest)
  | '-' :: '-' :: '!' :: '>' :: rest => ([], rest)
  | c :: rest =>
    let (body, left) := scanCommentBody rest
    (c :: body, left)

/-- A comment may end directly after its opening. -/
def scanComment : List Char → List Char × List Char
  | '>' :: rest => ([], rest)
  | '-' :: '>' :: rest => ([], rest)
  | cs => scanCommentBody cs

/-- The characters up to the next closing bracket, and what is left after it. -/
def scanBogus (cs : List Char) : List Char × List Char :=
  let body := cs.takeWhile fun c => c ≠ '>'
  (body, cs.drop (body.length + 1))

/-- Does the text start with the given letters, in either case? -/
def startsWithLetters (letters cs : List Char) : Bool :=
  (cs.take letters.length).map asciiLower == letters

/-- What is left of a character data section that starts here, if one does. -/
def afterSectionOpening? : List Char → Option (List Char)
  | '[' :: 'C' :: 'D' :: 'A' :: 'T' :: 'A' :: '[' :: rest => some rest
  | _ => none

/-- A token that was read (there may be none), the mode for what comes next, and the text left. -/
structure Scan where
  token : Option Token
  mode : ReadingMode
  rest : List Char
  deriving DecidableEq, Repr, Inhabited

def Scan.ofComment (body : List Char × List Char) : Scan :=
  ⟨some (.comment (String.ofList (body.1.map showNull))), .markup, body.2⟩

/-- Read after `<!`. Character data sections are known inside foreign elements alone. -/
def scanDeclaration (inForeign : Bool) (cs : List Char) : Scan :=
  match cs with
  | '-' :: '-' :: rest => .ofComment (scanComment rest)
  | _ =>
    if startsWithLetters "doctype".toList cs then ⟨some .doctype, .markup, (scanBogus cs).2⟩
    else match if inForeign then afterSectionOpening? cs else none with
      | some rest => ⟨none, .section, rest⟩
      | none => .ofComment (scanBogus cs)

/-- Read after `<`. -/
def scanAngle (inForeign : Bool) : List Char → Scan
  | '!' :: rest => scanDeclaration inForeign rest
  | '?' :: rest => .ofComment (scanBogus ('?' :: rest))
  | ['/'] => ⟨some (.text ['<', '/']), .markup, []⟩
  | '/' :: '>' :: rest => ⟨none, .markup, rest⟩
  | '/' :: c :: rest =>
    if isAsciiLetter c then
      match scanTag (c :: rest) with
      | some (tag, left) => ⟨some (.closing tag), .markup, left⟩
      | none => ⟨none, .markup, []⟩
    else .ofComment (scanBogus (c :: rest))
  | c :: rest =>
    if isAsciiLetter c then
      match scanTag (c :: rest) with
      | some (tag, left) => ⟨some (.opening tag), .markup, left⟩
      | none => ⟨none, .markup, []⟩
    else ⟨some (.text ['<']), .markup, c :: rest⟩
  | [] => ⟨some (.text ['<']), .markup, []⟩

def scanMarkup (inForeign : Bool) : List Char → Scan
  | [] => ⟨none, .markup, []⟩
  | c :: rest =>
    if c = '<' then scanAngle inForeign rest
    else if c = '\x00' then ⟨some .null, .markup, rest⟩
    else
      let run := (c :: rest).takeWhile fun c => c ≠ '<' ∧ c ≠ '\x00'
      ⟨some (.text (expand false run)), .markup, (c :: rest).drop run.length⟩

/-- Does the text after `<` close the element with this name? -/
def closesElement (label : List Char) : List Char → Bool
  | '/' :: rest =>
    startsWithLetters label rest && (rest.drop label.length).head?.any endsTagName
  | _ => false

/-- The text up to the end tag of an element. -/
def rawRun (label : List Char) : List Char → List Char
  | [] => []
  | c :: rest => if c = '<' && closesElement label rest then [] else c :: rawRun label rest

/-- Where a script stands: outside comments, in one, or in a script inside one. The number counts
the dashes just read. -/
inductive ScriptPlace
  | plain
  | escaped (dashes : Nat)
  | nested (dashes : Nat)
  deriving DecidableEq, Repr, Inhabited

def scriptLabel : List Char := "script".toList

def opensScript (cs : List Char) : Bool :=
  startsWithLetters scriptLabel cs && (cs.drop scriptLabel.length).head?.any endsTagName

/-- The place after one more character of a script. -/
def ScriptPlace.step (place : ScriptPlace) (c : Char) (rest : List Char) : ScriptPlace :=
  match place with
  | .plain => if c = '<' ∧ rest.take 3 = ['!', '-', '-'] then .escaped 0 else .plain
  | .escaped dashes =>
    if c = '-' then .escaped (dashes + 1)
    else if c = '>' ∧ 2 ≤ dashes then .plain
    else if c = '<' ∧ opensScript rest then .nested 0
    else .escaped 0
  | .nested dashes =>
    if c = '-' then .nested (dashes + 1)
    else if c = '>' ∧ 2 ≤ dashes then .plain
    else if c = '<' ∧ closesElement scriptLabel rest then .escaped 0
    else .nested 0

def ScriptPlace.isNested : ScriptPlace → Bool
  | .nested _ => true
  | _ => false

/-- The text of a script up to its end tag. -/
def scriptRun : ScriptPlace → List Char → List Char
  | _, [] => []
  | place, c :: rest =>
    if c = '<' && !place.isNested && closesElement scriptLabel rest then []
    else c :: scriptRun (place.step c rest) rest

/-- A run of text, or the end tag in front of which it ended. -/
def scanRun (mode : ReadingMode) (shown run cs : List Char) : Scan :=
  if run.isEmpty then scanMarkup false cs
  else ⟨some (.text shown), mode, cs.drop run.length⟩

/-- The characters up to the end of a character data section or to a null character. -/
def sectionRun : List Char → List Char
  | [] => []
  | ']' :: ']' :: '>' :: _ => []
  | c :: rest => if c = '\x00' then [] else c :: sectionRun rest

def scanSection : List Char → Scan
  | [] => ⟨none, .markup, []⟩
  | ']' :: ']' :: '>' :: rest => ⟨none, .markup, rest⟩
  | c :: rest =>
    if c = '\x00' then ⟨some .null, .section, rest⟩
    else
      let run := sectionRun (c :: rest)
      ⟨some (.text run), .section, (c :: rest).drop run.length⟩

/-- The first token of a text that is not empty. -/
def scan (mode : ReadingMode) (inForeign : Bool) (cs : List Char) : Scan :=
  match mode with
  | .markup => scanMarkup inForeign cs
  | .escapable label =>
    let run := rawRun label.toList cs
    scanRun mode (expand false (run.map showNull)) run cs
  | .raw label =>
    let run := rawRun label.toList cs
    scanRun mode (run.map showNull) run cs
  | .script =>
    let run := scriptRun .plain cs
    scanRun mode (run.map showNull) run cs
  | .plain => ⟨some (.text (cs.map showNull)), .plain, []⟩
  | .section => scanSection cs

end Html
end Markup
end CrossRef
