import CrossRef.Pass.Basic

/-!
The text of links. References to equations, headings and chapters say what they lead to as the index
knows it.
-/
namespace CrossRef
namespace Pass

open Markup Index

/-- A link to an equation shows the number of the equation. -/
def judgeEquationText (ctx : Context) (dom : Dom) (link : NodeId) : Verdict :=
  match linkTarget? dom link with
  | some (.equation identifier) =>
    match ctx.findEquation? identifier with
    | none => .unresolved identifier
    | some entry =>
      let old := dom.textOf (some link)
      .ofText old (some (equationText old identifier entry (ctx.isOther entry.chapterId)))
  | _ => .keep

/-- A link to a chapter or heading shows the number of it. Entries of a table of contents keep their
text. -/
def judgeSectionText (ctx : Context) (dom : Dom) (link : NodeId) : Verdict :=
  if isContentsEntry dom link then .keep
  else
    let old := dom.textOf (some link)
    match linkTarget? dom link with
    | some (.chapter reference) =>
      match ctx.manifest.findByReference? reference with
      | none => .unresolved (String.ofList (chapterMark ++ reference.toList))
      | some chapter => .ofText old (chapterText old reference chapter)
    | some (.heading identifier) =>
      match ctx.findSection? identifier with
      | none => .unresolved identifier
      | some entry => .ofText old (some (sectionText entry (ctx.isOther entry.chapterId)))
    | _ => .keep

/-- Change the text of links to equations. -/
def renderEquationRefs (ctx : Context) (f : Fragment) : Fragment × Report :=
  changeLinks (judgeEquationText ctx) f

/-- Change the text of links to chapters and headings. -/
def renderTextRefs (ctx : Context) (f : Fragment) : Fragment × Report :=
  changeLinks (judgeSectionText ctx) f

end Pass
end CrossRef
