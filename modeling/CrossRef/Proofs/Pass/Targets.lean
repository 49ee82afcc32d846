import CrossRef.Proofs.Index.Document
import CrossRef.Proofs.Pass.Settled

/-!
Leading links to other chapters. The pass gives new addresses to those local links that it should and
changes nothing else, and no link with a new address is local any more.
-/
namespace CrossRef
namespace Pass

open Markup Markup.Dom Index

variable {ctx : Context} {equationTargets : Bool} {f : Fragment} {dom dom' : Dom} {m x : NodeId}
  {links : List NodeId} {label value target owner : String}

/-! ### One attribute -/

/-- The second node is the first with another value for its first attribute of a label. -/
def WithValue (label old new : String) (node node' : Node) : Prop :=
  ∃ name before a after, node.content = .element name (before ++ a :: after) ∧
    (∀ b ∈ before, b.name.label ≠ label) ∧ a.name.label = label ∧ a.value = old ∧
    node' = { node with content := .element name (before ++ { a with value := new } :: after) }

theorem updateAttribute_of_first {before after : List Attribute} {a : Attribute}
    (hbefore : ∀ b ∈ before, b.name.label ≠ label) (ha : a.name.label = label) (value : String) :
    updateAttribute label value (before ++ a :: after) =
      before ++ { a with value := value } :: after := by
  induction before with
  | nil => simp [updateAttribute, ha]
  | cons b rest ih =>
    have hb := hbefore b List.mem_cons_self
    have hrest := ih fun b' hb' => hbefore b' (List.mem_cons_of_mem b hb')
    simp [updateAttribute, hb, hrest]

theorem node?_setAttribute_of_ne (h : x ≠ m) :
    (dom.setAttribute (some m) label value).node? (some x) = dom.node? (some x) := by
  rw [setAttribute, node?_modify, if_neg (by simpa using Ne.symm h)]

theorem node?_setAttribute_congr (h : dom'.node? (some x) = dom.node? (some x)) :
    (dom'.setAttribute (some x) label value).node? (some x) =
      (dom.setAttribute (some x) label value).node? (some x) := by
  simp only [setAttribute, node?_modify, h]

/-- A new address takes the place of the old one. -/
theorem withValue_setHref (h : Fragment.localTarget? dom x = some target) (href : String) :
    ∃ node node', dom.node? (some x) = some node ∧
      (dom.setAttribute (some x) "href" href).node? (some x) = some node' ∧
      WithValue "href" ("#" ++ target) href node node' := by
  obtain ⟨a, hfirst, hvalue⟩ := Option.map_eq_some_iff.mp (href_of_localTarget? h)
  obtain ⟨hlabel, before, after, hattributes, hbefore⟩ := List.find?_eq_some_iff_append.mp hfirst
  simp only [beq_iff_eq, Bool.not_eq_true', beq_eq_false_iff_ne] at hlabel hbefore
  obtain ⟨node, name, hnode, hcontent⟩ : ∃ node name, dom.node? (some x) = some node ∧
      node.content = .element name (before ++ a :: after) := by
    unfold Dom.attributes at hattributes
    split at hattributes
    · next name attributes hcontent =>
      obtain ⟨node, hnode, hnodeContent⟩ := Option.map_eq_some_iff.mp hcontent
      exact ⟨node, name, hnode, hattributes ▸ hnodeContent⟩
    · simp at hattributes
  refine ⟨node, _, hnode, ?_, name, before, a, after, hcontent, hbefore, hlabel, hvalue, rfl⟩
  rw [setAttribute, node?_modify, if_pos rfl, hnode, Option.map_some]
  simp only [hcontent, updateAttribute_of_first hbefore hlabel]

/-! ### All links -/

/-- The new address of a link, if it gets one. -/
def newHref? (ctx : Context) (equationTargets : Bool) (dom : Dom) (x : NodeId) : Option String :=
  (Fragment.localTarget? dom x).bind fun target =>
    (newOwner? ctx equationTargets target).map (addressIn · target)

theorem newHref?_congr (h : dom'.node? (some x) = dom.node? (some x)) :
    newHref? ctx equationTargets dom' x = newHref? ctx equationTargets dom x := by
  have hcontent : dom'.content? (some x) = dom.content? (some x) := by rw [content?, h, content?]
  rw [newHref?, localTarget?_congr hcontent, newHref?]

theorem judgeTarget_eq_newHref? (ctx : Context) (equationTargets : Bool) (dom : Dom) (x : NodeId) :
    judgeTarget ctx equationTargets dom x =
      match newHref? ctx equationTargets dom x with
      | some href => .newTarget href
      | none => .keep := by
  unfold newHref?
  cases htarget : Fragment.localTarget? dom x with
  | none => simp [judgeTarget, htarget]
  | some target =>
    rw [judgeTarget_eq htarget, Option.bind_some]
    cases newOwner? ctx equationTargets target <;> rfl

theorem carryOut_judgeTarget (ctx : Context) (equationTargets : Bool) (dom : Dom) (x : NodeId) :
    (judgeTarget ctx equationTargets dom x).carryOut dom x =
      match newHref? ctx equationTargets dom x with
      | some href => (dom.setAttribute (some x) "href" href, ⟨1, []⟩)
      | none => (dom, .empty) := by
  rw [judgeTarget_eq_newHref?]
  cases newHref? ctx equationTargets dom x <;> rfl

/-- What becomes of the links judged, and of all other nodes, and what is counted. -/
structure Redirected (ctx : Context) (equationTargets : Bool) (dom : Dom) (links : List NodeId)
    (result : Dom × Report) : Prop where
  size : result.1.size = dom.size
  other : ∀ x, x ∉ links ∨ newHref? ctx equationTargets dom x = none →
    result.1.node? (some x) = dom.node? (some x)
  link : ∀ x ∈ links, ∀ href, newHref? ctx equationTargets dom x = some href →
    result.1.node? (some x) = (dom.setAttribute (some x) "href" href).node? (some x)
  report : result.2 =
    ⟨(links.filter fun x => (newHref? ctx equationTargets dom x).isSome).length, []⟩

namespace Redirected

variable {result : Dom × Report} {href : String}

/-- A link that gets no new address is passed over. -/
theorem skip (h : Redirected ctx equationTargets dom links result)
    (hm : newHref? ctx equationTargets dom m = none) :
    Redirected ctx equationTargets dom (m :: links) result where
  size := h.size
  other x hx := h.other x (hx.imp (fun hnot hmem => hnot (List.mem_cons_of_mem m hmem)) id)
  link x hx href hhref := by
    rcases List.mem_cons.mp hx with rfl | hx
    · simp [hm] at hhref
    · exact h.link x hx href hhref
  report := by
    rw [List.filter_cons_of_neg (by simp [hm])]
    exact h.report

/-- A link that gets a new address changes alone, so the links after it get the addresses that they
would have got before. -/
theorem lead (h : Redirected ctx equationTargets (dom.setAttribute (some m) "href" href) links result)
    (hm : newHref? ctx equationTargets dom m = some href) (hnot : m ∉ links) :
    Redirected ctx equationTargets dom (m :: links) (result.1, Report.merge ⟨1, []⟩ result.2) := by
  have hsame : ∀ x, x ≠ m →
      (dom.setAttribute (some m) "href" href).node? (some x) = dom.node? (some x) :=
    fun x => node?_setAttribute_of_ne
  have hlater : ∀ x, x ≠ m → newHref? ctx equationTargets (dom.setAttribute (some m) "href" href) x =
      newHref? ctx equationTargets dom x := fun x hx => newHref?_congr (hsame x hx)
  have hne : ∀ x ∈ links, x ≠ m := fun x hx heq => hnot (heq ▸ hx)
  refine ⟨?_, fun x hx => ?_, fun x hx new hnew => ?_, ?_⟩
  · exact h.size.trans (size_modify dom (some m) _)
  · have hxm : x ≠ m := by
      rintro rfl
      simp [hm] at hx
    rw [← hsame x hxm]
    refine h.other x (hx.imp (fun hnot hmem => hnot (List.mem_cons_of_mem m hmem)) fun hnone => ?_)
    rw [hlater x hxm, hnone]
  · rcases List.mem_cons.mp hx with rfl | hx
    · obtain rfl : href = new := Option.some_inj.mp (hm.symm.trans hnew)
      exact h.other x (.inl hnot)
    · have hlink := h.link x hx new (by rw [hlater x (hne x hx), hnew])
      exact hlink.trans (node?_setAttribute_congr (hsame x (hne x hx)))
  · have hcount : links.filter (fun x => (newHref? ctx equationTargets
          (dom.setAttribute (some m) "href" href) x).isSome) =
        links.filter fun x => (newHref? ctx equationTargets dom x).isSome :=
      List.filter_congr fun x hx => by rw [hlater x (hne x hx)]
    rw [List.filter_cons_of_pos (by simp [hm]), h.report, hcount]
    simp [Report.merge, Nat.add_comm]

end Redirected

/-- Every link is led to where it leads at the start. -/
theorem redirected_judgeLinks (ctx : Context) (equationTargets : Bool) (dom : Dom)
    (hnodup : links.Nodup) :
    Redirected ctx equationTargets dom links
      (judgeLinks (judgeTarget ctx equationTargets) dom links) := by
  induction links generalizing dom with
  | nil => exact ⟨rfl, fun _ _ => rfl, by simp, rfl⟩
  | cons m rest ih =>
    obtain ⟨hnot, hrest⟩ := List.nodup_cons.mp hnodup
    rw [judgeLinks, carryOut_judgeTarget]
    cases hm : newHref? ctx equationTargets dom m with
    | none => simpa using (ih dom hrest).skip hm
    | some href => exact (ih (dom.setAttribute (some m) "href" href) hrest).lead hm hnot

/-! ### Owners -/

/-- No chapter of the manifest or the index has an id that starts with a number sign. -/
structure Context.IdsApart (ctx : Context) : Prop where
  manifest : ∀ chapter ∈ ctx.manifest.chapters, startsWith ['#'] chapter.id = false
  sections : ∀ chapter ∈ ctx.index.chapters, ∀ entry ∈ chapter.sections.headings,
    startsWith ['#'] entry.chapterId = false
  equations : ∀ chapter ∈ ctx.index.chapters, ∀ entry ∈ chapter.equations.entries,
    startsWith ['#'] entry.chapterId = false

theorem Context.IdsApart.targetOwner (h : ctx.IdsApart) {target : LinkTarget}
    (howner : targetOwner? ctx equationTargets target = some owner) :
    startsWith ['#'] owner = false := by
  cases target with
  | chapter reference =>
    obtain ⟨chapter, hchapter, rfl⟩ := Option.map_eq_some_iff.mp howner
    exact h.manifest chapter (List.mem_of_find?_eq_some hchapter)
  | heading identifier =>
    obtain ⟨entry, hentry, rfl⟩ := Option.map_eq_some_iff.mp howner
    obtain ⟨chapter, hchapter, hget⟩ := exists_of_findSection? hentry
    exact h.sections chapter hchapter entry (ChapterSections.mem_of_get? hget).1
  | equation identifier =>
    cases equationTargets with
    | false => simp [targetOwner?] at howner
    | true =>
      obtain ⟨entry, hentry, rfl⟩ := Option.map_eq_some_iff.mp howner
      obtain ⟨chapter, hchapter, hget⟩ := exists_of_findEquation? hentry
      exact h.equations chapter hchapter entry (List.mem_of_find?_eq_some hget)
  | excluded => simp [targetOwner?] at howner

theorem newOwner?_eq_some_iff : newOwner? ctx equationTargets target = some owner ↔
    startsWith contentsMark target = false ∧
      targetOwner? ctx equationTargets (classify target) = some owner ∧ owner ≠ ctx.chapterId := by
  unfold newOwner?
  split_ifs with hcontents
  · simp [hcontents]
  · simp [hcontents, Option.filter_eq_some_iff, Context.isOther, ne_comm]

/-- The address that a link is given is not local. -/
theorem localTarget?_of_newHref? (hids : ctx.IdsApart) {href : String}
    (hnew : newHref? ctx equationTargets dom x = some href)
    (hhref : dom'.attribute? (some x) "href" = some href) : Fragment.localTarget? dom' x = none := by
  obtain ⟨target, -, hmap⟩ := Option.bind_eq_some_iff.mp hnew
  obtain ⟨owner, hnewOwner, rfl⟩ := Option.map_eq_some_iff.mp hmap
  obtain ⟨-, howner, -⟩ := newOwner?_eq_some_iff.mp hnewOwner
  exact localTarget?_addressIn (hids.targetOwner howner) hhref

/-! ### The pass -/

theorem redirected_retargetLinks (h : f.WellFormed) (ctx : Context) (equationTargets : Bool) :
    Redirected ctx equationTargets f.dom f.localLinks
      ((retargetLinks equationTargets ctx f).1.dom, (retargetLinks equationTargets ctx f).2) :=
  redirected_judgeLinks ctx equationTargets f.dom (nodup_localLinks h)

/-- A link that is local after the pass was left as it was. -/
theorem newHref?_of_mem_localLinks (h : f.WellFormed) (hids : ctx.IdsApart)
    (hx : x ∈ (retargetLinks equationTargets ctx f).1.localLinks) :
    newHref? ctx equationTargets f.dom x = none := by
  have hlink := (redirected_retargetLinks h ctx equationTargets).link x
    (mem_localLinks_of_changeLinks h hx)
  have hlocal : (Fragment.localTarget? (retargetLinks equationTargets ctx f).1.dom x).isSome :=
    ((mem_localLinks_iff (wellFormed_changeLinks h _)).mp hx).2.2
  cases hnew : newHref? ctx equationTargets f.dom x with
  | none => rfl
  | some href =>
    have hname : (f.dom.name? (some x)).isSome :=
      ((mem_localLinks_iff h).mp (mem_localLinks_of_changeLinks h hx)).2.name?_isSome
    have hcontent : (retargetLinks equationTargets ctx f).1.dom.content? (some x) =
        (f.dom.setAttribute (some x) "href" href).content? (some x) := by
      rw [content?, hlink href hnew, content?]
    have hhref := (attribute?_congr hcontent "href").trans (attribute?_setAttribute hname "href" href)
    simp [localTarget?_of_newHref? hids hnew hhref] at hlocal

theorem node?_of_mem_localLinks (h : f.WellFormed) (hids : ctx.IdsApart)
    (hx : x ∈ (retargetLinks equationTargets ctx f).1.localLinks) :
    (retargetLinks equationTargets ctx f).1.dom.node? (some x) = f.dom.node? (some x) :=
  (redirected_retargetLinks h ctx equationTargets).other x
    (.inr (newHref?_of_mem_localLinks h hids hx))

/-- No local link is left that leads to another chapter. -/
theorem owner_of_mem_localLinks (h : f.WellFormed) (hids : ctx.IdsApart)
    (hx : x ∈ (retargetLinks equationTargets ctx f).1.localLinks)
    (htarget : Fragment.localTarget? (retargetLinks equationTargets ctx f).1.dom x = some target)
    (hcontents : startsWith contentsMark target = false)
    (howner : targetOwner? ctx equationTargets (classify target) = some owner) :
    owner = ctx.chapterId := by
  have hnode := node?_of_mem_localLinks h hids hx
  have hnone := newHref?_of_mem_localLinks h hids hx
  rw [← newHref?_congr hnode, newHref?, htarget, Option.bind_some, Option.map_eq_none_iff] at hnone
  by_contra hother
  have hsome := newOwner?_eq_some_iff.mpr ⟨hcontents, howner, hother⟩
  simp [hnone] at hsome

theorem retargetLinks_of_newHref?_none (h : f.WellFormed)
    (hnone : ∀ x ∈ f.localLinks, newHref? ctx equationTargets f.dom x = none) :
    retargetLinks equationTargets ctx f = (f, .empty) := by
  have hidle : ∀ x ∈ f.localLinks, (judgeTarget ctx equationTargets f.dom x).Idle := by
    intro x hx
    rw [judgeTarget_eq_newHref?, hnone x hx]
    trivial
  have hnobody : f.localLinks.filter (fun x => (newHref? ctx equationTargets f.dom x).isSome) = [] :=
    List.filter_eq_nil_iff.mpr fun x hx => by simp [hnone x hx]
  have hreport := (redirected_retargetLinks h ctx equationTargets).report
  rw [hnobody] at hreport
  exact Prod.ext (changeLinks_of_idle hidle).1 hreport

/-- The pass finds nothing to do after itself. -/
theorem retargetLinks_retargetLinks (h : f.WellFormed) (hids : ctx.IdsApart)
    (equationTargets : Bool) :
    retargetLinks equationTargets ctx (retargetLinks equationTargets ctx f).1 =
      ((retargetLinks equationTargets ctx f).1, .empty) :=
  retargetLinks_of_newHref?_none (wellFormed_changeLinks h _) fun _ hx =>
    (newHref?_congr (node?_of_mem_localLinks h hids hx)).trans (newHref?_of_mem_localLinks h hids hx)

/-- The pass changes nothing but the values of first attributes `href` of links that were local: such a
link gets the address of its target in the file of the chapter that the target is in, if that is
another chapter and the target is not one of a table of contents. After it no local link leads to
another chapter, and a second run finds nothing to do. -/
theorem retargetLinks_spec (h : f.WellFormed) (hids : ctx.IdsApart) (equationTargets : Bool) :
    let f' := (retargetLinks equationTargets ctx f).1
    f'.root = f.root ∧ f'.dom.size = f.dom.size ∧
    (∀ x, x ∉ f.localLinks → f'.dom.node? (some x) = f.dom.node? (some x)) ∧
    (∀ x ∈ f.localLinks, ∃ target, f.dom.attribute? (some x) "href" = some ("#" ++ target) ∧
      match newOwner? ctx equationTargets target with
      | none => f'.dom.node? (some x) = f.dom.node? (some x)
      | some owner => ∃ node node', f.dom.node? (some x) = some node ∧
          f'.dom.node? (some x) = some node' ∧
          WithValue "href" ("#" ++ target) (owner ++ ".html#" ++ target) node node') ∧
    (∀ target owner, newOwner? ctx equationTargets target = some owner ↔
      startsWith contentsMark target = false ∧
        targetOwner? ctx equationTargets (classify target) = some owner ∧ owner ≠ ctx.chapterId) ∧
    (∀ x ∈ f'.localLinks, ∀ target owner,
      Fragment.localTarget? f'.dom x = some target → startsWith contentsMark target = false →
      targetOwner? ctx equationTargets (classify target) = some owner → owner = ctx.chapterId) ∧
    retargetLinks equationTargets ctx f' = (f', ⟨0, []⟩) := by
  intro f'
  have hdone := redirected_retargetLinks h ctx equationTargets
  refine ⟨rfl, hdone.size, fun x hx => hdone.other x (.inl hx), fun x hx => ?_,
    fun target owner => newOwner?_eq_some_iff,
    fun x hx target owner => owner_of_mem_localLinks h hids hx,
    retargetLinks_retargetLinks h hids equationTargets⟩
  obtain ⟨target, htarget⟩ := Option.isSome_iff_exists.mp ((mem_localLinks_iff h).mp hx).2.2
  refine ⟨target, href_of_localTarget? htarget, ?_⟩
  have hnew : newHref? ctx equationTargets f.dom x =
      (newOwner? ctx equationTargets target).map (addressIn · target) := by
    rw [newHref?, htarget, Option.bind_some]
  cases howner : newOwner? ctx equationTargets target with
  | none => exact hdone.other x (.inr (by rw [hnew, howner, Option.map_none]))
  | some owner =>
    have hlink := hdone.link x hx (addressIn owner target) (by rw [hnew, howner, Option.map_some])
    obtain ⟨node, node', hnode, hnode', hvalue⟩ := withValue_setHref htarget (addressIn owner target)
    exact ⟨node, node', hnode, hlink.trans hnode', hvalue⟩

/-- Of a link with two addresses the first one is changed, whatever vocabulary it is from. The second
link leads to a heading of another chapter and the third one to a table of contents. -/
theorem retargetLinks_three_links :
    let made (dom : Dom) (content : Content) := (dom.create content).1.append (some 0) (some dom.size)
    let link (attributes : List Attribute) : Content := .element (.html "a") attributes
    let f : Fragment := ⟨made (made (made empty
      (link [⟨⟨.xlink, "href"⟩, "#ch:two"⟩, .plain "href" "#here"])) (link [.plain "href" "#data"]))
      (link [.plain "href" "#toc-two"]), 0⟩
    let manifest : Manifest :=
      ⟨[⟨"one", none, "One", none, .chapters⟩, ⟨"two", none, "Two", none, .chapters⟩]⟩
    let sections := ChapterSections.empty.register ⟨["data", "toc-two"], "Data", 2, "two", "Two", "1"⟩
    let ctx : Context := ⟨manifest, DocumentIndex.empty.insert "two" sections .empty, "one"⟩
    let f' := (retargetLinks false ctx f).1
    f.WellFormed ∧ ctx.IdsApart ∧
      f'.dom.attributes (some 1) = [⟨⟨.xlink, "href"⟩, "two.html#ch:two"⟩, .plain "href" "#here"] ∧
      f'.dom.attributes (some 2) = [.plain "href" "two.html#data"] ∧ f'.localLinks = [3] ∧
      retargetLinks false ctx f' = (f', ⟨0, []⟩) := by
  intro made link f manifest sections ctx f'
  have hwf : f.WellFormed :=
    ⟨((wellFormed_empty.append_create _ (p := 0) (by decide)).append_create _ (p := 0)
      (by decide)).append_create _ (p := 0) (by decide), by decide⟩
  have hids : ctx.IdsApart := ⟨by decide +kernel, by decide +kernel, by decide +kernel⟩
  have hfirst : f'.dom.attributes (some 1) =
      [⟨⟨.xlink, "href"⟩, "two.html#ch:two"⟩, .plain "href" "#here"] := by decide +kernel
  have hsecond : f'.dom.attributes (some 2) = [.plain "href" "two.html#data"] := by decide +kernel
  have hlocal : f'.localLinks = [3] := by decide +kernel
  have hagain : retargetLinks false ctx f' = (f', ⟨0, []⟩) :=
    (retargetLinks_spec hwf hids false).2.2.2.2.2.2
  exact ⟨hwf, hids, hfirst, hsecond, hlocal, hagain⟩

end Pass
end CrossRef
