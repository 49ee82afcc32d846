import CrossRef.Pass.Basic

/-!
The targets of links. A link to something in another chapter gets the file of that chapter; after
that it is no local link any more.
-/
namespace CrossRef
namespace Pass

open Markup Index

/-- The chapter that a target is in, as far as the index or the manifest knows it. -/
def targetOwner? (ctx : Context) (equationTargets : Bool) : LinkTarget → Option String
  | .chapter reference => (ctx.manifest.findByReference? reference).map (·.id)
  | .heading identifier => (ctx.findSection? identifier).map (·.chapterId)
  | .equation identifier =>
    if equationTargets then (ctx.findEquation? identifier).map (·.chapterId) else none
  | .excluded => none

/-- The address of a target in the file of another chapter. -/
def addressIn (chapterId target : String) : String := chapterId ++ ".html#" ++ target

def judgeTarget (ctx : Context) (equationTargets : Bool) (dom : Dom) (link : NodeId) : Verdict :=
  match Fragment.localTarget? dom link with
  | none => .keep
  | some target =>
    if startsWith contentsMark target then .keep
    else match targetOwner? ctx equationTargets (classify target) with
      | none => .keep
      | some owner => if ctx.isOther owner then .newTarget (addressIn owner target) else .keep

/-- Lead the links of a chapter to the files of the chapters that they point into. -/
def retargetLinks (equationTargets : Bool) (ctx : Context) (f : Fragment) : Fragment × Report :=
  changeLinks (judgeTarget ctx equationTargets) f

end Pass
end CrossRef
