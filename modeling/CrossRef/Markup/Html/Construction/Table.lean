import CrossRef.Markup.Html.Construction.Body

/-!
Tags and text inside tables. What a table cannot hold is handled as in the body, but placed outside
the table.
-/
namespace CrossRef
namespace Markup
namespace Html

/-- The blank characters of running text. -/
def isTextBlank (c : Char) : Bool :=
  c = ' ' || c = '\t' || c = '\n' || c = '\x0c' || c = '\r'

namespace Construction

/-- Handle a token as in the body, placing outside the table what it cannot hold. -/
def fosterInBody (c : Construction) (token : Token) : Construction × Next :=
  let (c, next) := { c with isFostering := true }.inBody token
  ({ c with isFostering := false }, next)

/-- Text directly inside a table is collected; elsewhere it is placed outside. -/
def textInTable (c : Construction) (token : Token) : Construction × Next :=
  if c.currentIs isTableFrame then
    ({ c with returnMode := c.mode, mode := .inTableText }, .again token)
  else c.fosterInBody token

def openInTable (c : Construction) (tag : Tag) : Construction × Next :=
  let inTable := c.popTo endsTableScope
  match tag.label with
  | "caption" => ({ inTable.pushMarker.openTag tag with mode := .inCaption }, .done)
  | "colgroup" => ({ inTable.openTag tag with mode := .inColumnGroup }, .done)
  | "col" =>
    ({ inTable.openBare "colgroup" with mode := .inColumnGroup }, .again (.opening tag))
  | "tbody" | "tfoot" | "thead" => ({ inTable.openTag tag with mode := .inTableBody }, .done)
  | "td" | "th" | "tr" =>
    ({ inTable.openBare "tbody" with mode := .inTableBody }, .again (.opening tag))
  | "table" =>
    if c.hasInScopeOf endsTableScope "table" then
      ((c.popThroughNamed "table").resetMode, .again (.opening tag))
    else (c, .done)
  | "style" | "script" | "template" => c.openMetadata tag
  | "input" =>
    if isHiddenInput tag then (c.insertVoid tag, .done) else c.fosterInBody (.opening tag)
  | "form" =>
    if c.hasTemplate || c.form.isSome then (c, .done)
    else
      let (c, node) := c.insertClosed (.html tag.label) (tag.attributesIn .html)
      ({ c with form := some node }, .done)
  | _ => c.fosterInBody (.opening tag)

def closeInTable (c : Construction) (tag : Tag) : Construction × Next :=
  match tag.label with
  | "table" =>
    if c.hasInScopeOf endsTableScope "table" then
      ((c.popThroughNamed "table").resetMode, .done)
    else (c, .done)
  | "body" | "caption" | "col" | "colgroup" | "html" | "tbody" | "td" | "tfoot" | "th" | "thead"
  | "tr" => (c, .done)
  | "template" => (c.closeTemplate, .done)
  | _ => c.fosterInBody (.closing tag)

def inTable (c : Construction) : Token → Construction × Next
  | .text chars => c.textInTable (.text chars)
  | .null => c.textInTable .null
  | .comment text => (c.insertComment text, .done)
  | .opening tag => c.openInTable tag
  | .closing tag => c.closeInTable tag
  | .doctype => (c, .done)

/-- Place the text collected in a table: blank text in the table, other text outside. -/
def placeTableText (c : Construction) : Construction :=
  let chars := c.tableText
  let c := { c with tableText := [], mode := c.returnMode }
  if chars.isEmpty then c
  else if chars.all isTextBlank then c.insertText chars
  else (c.fosterInBody (.text chars)).1

def inTableText (c : Construction) : Token → Construction × Next
  | .text chars => ({ c with tableText := c.tableText ++ chars }, .done)
  | .null => (c, .done)
  | token => (c.placeTableText, .again token)

/-- Close the caption and go on in the table. -/
def leaveCaption (c : Construction) (next : Next) : Construction × Next :=
  if c.hasInScopeOf endsTableScope "caption" then
    ({ (c.closeImplied.popThroughNamed "caption").clearFormatting with mode := .inTable }, next)
  else (c, .done)

def inCaption (c : Construction) (token : Token) : Construction × Next :=
  match token with
  | .opening tag =>
    if ["caption", "col", "colgroup", "tbody", "td", "tfoot", "th", "thead", "tr"].contains
        tag.label then
      c.leaveCaption (.again token)
    else c.inBody token
  | .closing tag =>
    if tag.label = "caption" then c.leaveCaption .done
    else if tag.label = "table" then c.leaveCaption (.again token)
    else if ["body", "col", "colgroup", "html", "tbody", "td", "tfoot", "th", "thead",
        "tr"].contains tag.label then
      (c, .done)
    else c.inBody token
  | _ => c.inBody token

/-- Close the column group and go on in the table. -/
def leaveColumnGroup (c : Construction) (next : Next) : Construction × Next :=
  if c.currentIs (isHtmlNamed "colgroup") then ({ c.pop with mode := .inTable }, next)
  else (c, .done)

def inColumnGroup (c : Construction) (token : Token) : Construction × Next :=
  match token with
  | .text chars =>
    -- where no column group is open, other characters are dropped one by one
    let blank :=
      if c.currentIs (isHtmlNamed "colgroup") then chars.takeWhile isTextBlank
      else chars.filter isTextBlank
    let c := if blank.isEmpty then c else c.insertText blank
    match chars.dropWhile isTextBlank with
    | [] => (c, .done)
    | rest => c.leaveColumnGroup (.again (.text rest))
  | .comment text => (c.insertComment text, .done)
  | .opening tag =>
    match tag.label with
    | "html" => c.inBody token
    | "col" => (c.insertVoid tag, .done)
    | "template" => c.openMetadata tag
    | _ => c.leaveColumnGroup (.again token)
  | .closing tag =>
    match tag.label with
    | "colgroup" => c.leaveColumnGroup .done
    | "col" => (c, .done)
    | "template" => (c.closeTemplate, .done)
    | _ => c.leaveColumnGroup (.again token)
  | _ => c.leaveColumnGroup (.again token)

/-- Close the row group and handle the token in the table. -/
def leaveTableBody (c : Construction) (token : Token) : Construction × Next :=
  if inScope endsTableScope (fun e => isHtmlAmong ["table", "tbody", "tfoot"] e.name) c.opened then
    ({ (c.popTo isTableBodyContext).pop with mode := .inTable }, .again token)
  else (c, .done)

def inTableBody (c : Construction) (token : Token) : Construction × Next :=
  match token with
  | .opening tag =>
    match tag.label with
    | "tr" => ({ (c.popTo isTableBodyContext).openTag tag with mode := .inRow }, .done)
    | "td" | "th" =>
      ({ (c.popTo isTableBodyContext).openBare "tr" with mode := .inRow }, .again token)
    | "caption" | "col" | "colgroup" | "tbody" | "tfoot" | "thead" => c.leaveTableBody token
    | _ => c.inTable token
  | .closing tag =>
    match tag.label with
    | "tbody" | "tfoot" | "thead" =>
      if c.hasInScopeOf endsTableScope tag.label then
        ({ (c.popTo isTableBodyContext).pop with mode := .inTable }, .done)
      else (c, .done)
    | "table" => c.leaveTableBody token
    | "body" | "caption" | "col" | "colgroup" | "html" | "td" | "th" | "tr" => (c, .done)
    | _ => c.inTable token
  | _ => c.inTable token

/-- Close the row and go on in the row group. -/
def leaveRow (c : Construction) (next : Next) : Construction × Next :=
  if c.hasInScopeOf endsTableScope "tr" then
    ({ (c.popTo isTableRowContext).pop with mode := .inTableBody }, next)
  else (c, .done)

def inRow (c : Construction) (token : Token) : Construction × Next :=
  match token with
  | .opening tag =>
    match tag.label with
    | "td" | "th" =>
      (({ (c.popTo isTableRowContext).openTag tag with mode := .inCell }).pushMarker, .done)
    | "caption" | "col" | "colgroup" | "tbody" | "tfoot" | "thead" | "tr" =>
      c.leaveRow (.again token)
    | _ => c.inTable token
  | .closing tag =>
    match tag.label with
    | "tr" => c.leaveRow .done
    | "table" => c.leaveRow (.again token)
    | "tbody" | "tfoot" | "thead" =>
      if c.hasInScopeOf endsTableScope tag.label then c.leaveRow (.again token) else (c, .done)
    | "body" | "caption" | "col" | "colgroup" | "html" | "td" | "th" => (c, .done)
    | _ => c.inTable token
  | _ => c.inTable token

/-- Close the cell and handle the token in the row. -/
def leaveCell (c : Construction) (token : Token) : Construction × Next :=
  ({ (c.closeImplied.popThrough isCell).clearFormatting with mode := .inRow }, .again token)

def inCell (c : Construction) (token : Token) : Construction × Next :=
  match token with
  | .opening tag =>
    if ["caption", "col", "colgroup", "tbody", "td", "tfoot", "th", "thead", "tr"].contains
        tag.label then
      if inScope endsTableScope (fun e => isCell e.name) c.opened then c.leaveCell token
      else (c, .done)
    else c.inBody token
  | .closing tag =>
    match tag.label with
    | "td" | "th" =>
      if c.hasInScopeOf endsTableScope tag.label then
        ({ (c.closeImplied.popThroughNamed tag.label).clearFormatting with mode := .inRow }, .done)
      else (c, .done)
    | "body" | "caption" | "col" | "colgroup" | "html" => (c, .done)
    | "table" | "tbody" | "tfoot" | "thead" | "tr" =>
      if c.hasInScopeOf endsTableScope tag.label then c.leaveCell token else (c, .done)
    | _ => c.inBody token
  | _ => c.inBody token

end Construction
end Html
end Markup
end CrossRef
