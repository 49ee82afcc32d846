import CrossRef.Index.Document
import CrossRef.Config.Basic
import CrossRef.Pass.Reference

/-!
Passes: the steps that change a chapter. Each looks at the links or equations of the chapter one by one
and changes the markup in place.
-/
namespace CrossRef
namespace Pass

open Markup Index

/-- What a pass may look up while it works on a chapter. -/
structure Context where
  manifest : Manifest
  index : DocumentIndex
  /-- The chapter that the pass works on. -/
  chapterId : String
  deriving DecidableEq, Repr, Inhabited

namespace Context

/-- The chapter that the pass works on, if the manifest knows it. -/
def chapter? (ctx : Context) : Option Chapter := ctx.manifest.findChapter? ctx.chapterId

def isOther (ctx : Context) (chapterId : String) : Bool := ctx.chapterId ≠ chapterId

def findSection? (ctx : Context) (identifier : String) : Option SectionEntry :=
  ctx.index.findSection? ctx.chapterId identifier

def findEquation? (ctx : Context) (identifier : String) : Option EquationEntry :=
  ctx.index.findEquation? ctx.chapterId identifier

end Context

/-- What a pass did. -/
structure Report where
  /-- How many elements were changed. -/
  changed : Nat
  /-- The targets that look like references but lead nowhere. -/
  unresolved : List String
  deriving DecidableEq, Repr, Inhabited

namespace Report

def empty : Report := ⟨0, []⟩

def merge (r s : Report) : Report := ⟨r.changed + s.changed, r.unresolved ++ s.unresolved⟩

@[simp] theorem empty_merge (r : Report) : empty.merge r = r := by
  simp [merge, empty]

@[simp] theorem merge_empty (r : Report) : r.merge empty = r := by
  simp [merge, empty]

theorem merge_assoc (r s t : Report) : (r.merge s).merge t = r.merge (s.merge t) := by
  simp [merge, Nat.add_assoc]

end Report

/-- What a pass makes of a link. -/
inductive Verdict
  | keep
  | unresolved (target : String)
  | newText (text : String)
  | newTarget (href : String)
  deriving DecidableEq, Repr, Inhabited

/-- Carry out a verdict. -/
def Verdict.carryOut (verdict : Verdict) (dom : Dom) (link : NodeId) : Dom × Report :=
  match verdict with
  | .keep => (dom, .empty)
  | .unresolved target => (dom, ⟨0, [target]⟩)
  | .newText text => (dom.replaceChildrenWithText (some link) text, ⟨1, []⟩)
  | .newTarget href => (dom.setAttribute (some link) "href" href, ⟨1, []⟩)

/-- A new text counts only if it differs from the old one. -/
def Verdict.ofText (old : String) : Option String → Verdict
  | some new => if new = old then .keep else .newText new
  | none => .keep

/-- Judge links one after the other, each on the tree that the verdicts before have left. -/
def judgeLinks (judge : Dom → NodeId → Verdict) : Dom → List NodeId → Dom × Report
  | dom, [] => (dom, .empty)
  | dom, link :: rest =>
    let (dom, report) := (judge dom link).carryOut dom link
    let (dom, more) := judgeLinks judge dom rest
    (dom, report.merge more)

/-- Judging links in two parts is judging them all. -/
theorem judgeLinks_append (judge : Dom → NodeId → Verdict) (dom : Dom)
    (links more : List NodeId) :
    judgeLinks judge dom (links ++ more) =
      ((judgeLinks judge (judgeLinks judge dom links).1 more).1,
        (judgeLinks judge dom links).2.merge
          (judgeLinks judge (judgeLinks judge dom links).1 more).2) := by
  induction links generalizing dom with
  | nil => simp [judgeLinks]
  | cons link rest ih => simp [judgeLinks, ih, Report.merge_assoc]

/-- Judge the local links of a fragment in document order. -/
def changeLinks (judge : Dom → NodeId → Verdict) (f : Fragment) : Fragment × Report :=
  let (dom, report) := judgeLinks judge f.dom f.localLinks
  ({ f with dom := dom }, report)

/-- The kind of target of a local link. -/
def linkTarget? (dom : Dom) (link : NodeId) : Option LinkTarget :=
  (Fragment.localTarget? dom link).map classify

end Pass
end CrossRef
