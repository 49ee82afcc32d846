import CrossRef.Proofs.Ready.Walk

/-!
What is made again of an element when a written arena is read. Everything in front of the element ends in its
place, so its start tag is read outside of all text and all templates, and what comes after it takes nothing away.
-/
namespace CrossRef
namespace Markup
namespace Html

open Dom Text

variable {dom : Dom} {a r x : NodeId} {name : Name} {attributes : List Attribute} {outer : List Enclosing}

/-! ### The way down to an element -/

/-- The nodes below another one in front of a node: those below the children that come first, then the child that
holds the node and what is in front of it there. -/
theorem exists_child_split (hwf : dom.WellFormed) (h : dom.Above a x) :
    ∃ before k after, dom.children (some a) = before ++ k :: after ∧ dom.Encloses k x ∧
      (∀ c ∈ before, ∀ r ∈ dom.preorder c,
        r ∈ ((dom.children (some a)).flatMap dom.preorder).takeWhile (· ≠ x)) ∧
      (k ≠ x → k ∈ ((dom.children (some a)).flatMap dom.preorder).takeWhile (· ≠ x) ∧
        ∀ r ∈ ((dom.children (some k)).flatMap dom.preorder).takeWhile (· ≠ x),
          r ∈ ((dom.children (some a)).flatMap dom.preorder).takeWhile (· ≠ x)) := by
  obtain ⟨k, hk, hxk⟩ := List.mem_flatMap.mp (hwf.mem_flatMap_preorder_iff.mpr h)
  obtain ⟨before, after, heq⟩ := List.append_of_mem hk
  have hklt := lt_size_of_parent? (hwf.mem_children_iff.mp hk)
  have hnodup := hwf.nodup_below a
  rw [heq, List.flatMap_append, List.flatMap_cons] at hnodup ⊢
  have hbefore : ∀ r ∈ before.flatMap dom.preorder, (decide (r ≠ x)) = true := fun r hr => by
    have hne := (List.nodup_append.mp hnodup).2.2 r hr x (List.mem_append_left _ hxk)
    simpa using hne
  rw [List.takeWhile_append_of_pos hbefore]
  refine ⟨before, k, after, rfl, (hwf.mem_preorder_iff hklt).mp hxk, ?_, fun hne => ?_⟩
  · exact fun c hc r hr => List.mem_append_left _ (List.mem_flatMap_of_mem hc hr)
  · rw [hwf.preorder_eq hklt, List.cons_append, List.takeWhile_cons_of_pos (by simpa using hne)]
    refine ⟨by simp, fun r hr => ?_⟩
    refine List.mem_append_right _ (List.mem_cons_of_mem _ ?_)
    rw [List.takeWhile_append]
    split_ifs
    · exact List.mem_append_left _ (List.takeWhile_subset _ hr)
    · exact hr

/-- What makes an element that is written and read again: its start tag makes an element wherever it stands, it
stands in no template, and everything in front of it ends in its place. -/
structure MadeAgain (dom : Dom) (root x : NodeId) : Prop where
  placed : ∀ name ∈ dom.name? (some x), isDroppable (asciiLowercase name.label) = false
  outside : ∀ r ∈ dom.descendants (some root), x ∈ dom.descendants (some r) →
    ∀ name ∈ dom.name? (some r), isTemplate name = false
  ends : ∀ r ∈ (dom.descendants (some root)).takeWhile (· ≠ x), EndsInPlace dom r

instance (dom : Dom) (root x : NodeId) : Decidable (MadeAgain dom root x) :=
  decidable_of_iff (_ ∧ _ ∧ _) ⟨fun h => ⟨h.1, h.2.1, h.2.2⟩, fun h => ⟨h.placed, h.outside, h.ends⟩⟩

namespace Construction

variable {σ : Setting} {cs cs' tag : List Char}

/-- Reading a text leads to a tag in it, with as many templates open. -/
def LeadsTo (σ : Setting) (cs tag : List Char) : Prop :=
  ∀ before, '<' ∉ before → ∃ after, '<' ∉ after ∧ ∀ depth rest, ∃ rest',
    Proceeds σ depth (normalizeLines (before ++ (cs ++ rest))) depth (normalizeLines (after ++ (tag ++ rest')))

theorem LeadsTo.here (σ : Setting) (tag : List Char) : LeadsTo σ tag tag :=
  fun before hbefore => ⟨before, hbefore, fun depth rest => ⟨rest, .refl σ depth _⟩⟩

theorem LeadsTo.append (h : LeadsTo σ cs tag) (cs' : List Char) : LeadsTo σ (cs ++ cs') tag := by
  intro before hbefore
  obtain ⟨after, hafter, hread⟩ := h before hbefore
  refine ⟨after, hafter, fun depth rest => ?_⟩
  rw [List.append_assoc]
  exact hread depth (cs' ++ rest)

theorem Passes.leadsTo (h : Passes σ cs) (h' : LeadsTo σ cs' tag) : LeadsTo σ (cs ++ cs') tag := by
  intro before hbefore
  obtain ⟨between, hbetween, hread⟩ := h before hbefore
  obtain ⟨after, hafter, hread'⟩ := h' between hbetween
  refine ⟨after, hafter, fun depth rest => ?_⟩
  obtain ⟨rest', hrest'⟩ := hread' depth rest
  rw [List.append_assoc]
  exact ⟨rest', (hread depth (cs' ++ rest)).trans hrest'⟩

/-- The way leads into an element. -/
theorem LeadsTo.inside (hall : ∀ content, σ.fits content) (hlegible : LegibleTag name attributes)
    (hholds : holdsText (asciiLowercase name.label) = false) (hplain : asciiLowercase name.label ≠ "plaintext")
    (htemplate : isTemplate name = false) (h : LeadsTo σ cs tag) :
    LeadsTo σ ((startTag name attributes).toList ++ cs) tag := by
  intro before hbefore
  obtain ⟨after, hafter, hread⟩ := h [] List.not_mem_nil
  refine ⟨after, hafter, fun depth rest => ?_⟩
  obtain ⟨rest', hrest'⟩ := hread depth rest
  have hstart := proceeds_startTag hall depth hlegible hholds hplain (cs ++ rest)
  rw [templateStep, htemplate, if_neg Bool.false_ne_true, Nat.add_zero] at hstart
  rw [List.append_assoc]
  exact ⟨rest', (proceeds_before hall (opensNothing_of_not_mem hbefore) (by simp [toList_startTag]) hstart).trans hrest'⟩

/-- Reading what is in a node leads to the start tag of an element below it. -/
theorem leadsTo_element (hw : Writable dom) (hall : ∀ content, σ.fits content)
    (hx : dom.content? (some x) = some (.element name attributes)) (h : dom.Above a x)
    (hends : ∀ r ∈ ((dom.children (some a)).flatMap dom.preorder).takeWhile (· ≠ x), EndsInPlace dom r)
    (houtside : ∀ r, dom.Above a r → dom.Above r x → ∀ name ∈ dom.name? (some r), isTemplate name = false)
    (houter : Escapes outer) :
    LeadsTo σ (written outer ((dom.children (some a)).flatMap (dom.eventsOf dom.size)))
      (startTag name attributes).toList := by
  induction a using hw.wellFormed.subtree_induction generalizing outer with
  | step a ih =>
    have hnested : ∀ p, ∀ c ∈ dom.children (some p), Nested (dom.eventsOf dom.size c) := fun _ c _ =>
      nested_eventsOf dom dom.size c
    obtain ⟨front, k, behind, heq, henc, hfront, hk⟩ := exists_child_split hw.wellFormed h
    have hparent : ∀ c ∈ dom.children (some a), dom.parent? (some c) = some a := fun c =>
      hw.wellFormed.mem_children_iff.mp
    have hka := hparent k (by simp [heq])
    -- the children in front are read to their ends
    have hpasses : Passes σ (front.flatMap fun c => written outer (dom.eventsOf dom.size c)) := by
      refine .flatMap fun c hc => ?_
      have hca := hparent c (by simp [heq, hc])
      exact passes_node hw hall (lt_size_of_parent? hca) (fun r hr => hends r (hfront c hc r hr)) houter
    rw [written_flatMap (hnested a), heq, List.flatMap_append, List.flatMap_cons]
    refine hpasses.leadsTo (LeadsTo.append ?_ _)
    rw [hw.wellFormed.eventsOf_eq k]
    by_cases hkx : k = x
    · subst hkx
      rw [hx, eventsAround, written_element (.flatMap (hnested k)) houter.isSilent]
      exact (LeadsTo.here σ _).append _
    · have habove : dom.Above k x := (Relation.reflTransGen_iff_eq_or_transGen.mp henc).resolve_left (Ne.symm hkx)
      obtain ⟨hkends, hinner⟩ := hk hkx
      have hinside := fun {outer : List Enclosing} (houter : Escapes outer) =>
        ih k hka habove (fun r hr => hends r (hinner r hr))
          (fun r hr hrx => houtside r (.head hka hr) hrx) houter
      obtain ⟨c, hck, hcx⟩ := Relation.TransGen.head'_iff.mp habove
      have hholder := hw.parents c k hck
      cases hname : dom.name? (some k) with
      | none =>
        have hdocument := hholder.kind.resolve_right (by simp [hname])
        rw [hdocument]
        exact hinside houter
      | some other =>
        obtain ⟨others, hcontent⟩ := exists_content_of_name? hname
        have hself := hends k hkends
        have hvoid := hholder.name other hname
        have hplain := hself.plaintext other hname
        have hholds : holdsText (asciiLowercase other.label) = false := by
          refine Bool.eq_false_iff.mpr fun hholds => ?_
          obtain ⟨text, htext⟩ := hself.exists_text hname hholds c (hw.wellFormed.mem_children_iff.mpr hck)
          rcases Relation.ReflTransGen.cases_head hcx with rfl | ⟨d, hdc, -⟩
          · simp [hx] at htext
          · have hmem := hw.wellFormed.mem_children_iff.mpr hdc
            simp [hw.children_eq_nil htext] at hmem
        rw [hcontent, eventsAround, written_element (.flatMap (hnested k)) houter.isSilent]
        exact LeadsTo.inside hall (hw.legible k _ hcontent) hholds hplain (houtside k (.single hka) habove other hname)
          ((hinside (escapes_inside hvoid hholds hplain outer)).append _)

/-- What a construction watches is below the body of the document that is read. -/
theorem watched_parse {text : String} {mode : ReadingMode} {cs : List Char} {c : Construction}
    {attributes : List Attribute} {depth : Nat}
    (hread : ReadsOn start .markup (normalizeLines (text ++ "</body></html>").toList) c mode cs)
    (h : c.Watches { Setting.atStart (fun _ => True) with depth := depth } attributes) :
    let f := Fragment.parse text
    ∃ y other more, f.dom.Above f.root y ∧ f.dom.content? (some y) = some (.element other (attributes ++ more)) := by
  intro f
  obtain ⟨n, hn, hsteps⟩ := hread
  obtain ⟨i, horderly⟩ := h
  obtain ⟨fuel, hfuel⟩ : ∃ fuel, (normalizeLines (text ++ "</body></html>").toList).length + 1 = n + fuel :=
    ⟨_, (Nat.add_sub_cancel' (by omega)).symm⟩
  have hlawful : ((Setting.atStart fun _ => True).watch (i, attributes)).Lawful :=
    Setting.lawful_of_all fun _ => trivial
  obtain ⟨depth', hend⟩ := horderly.readAll hlawful (p := fun _ => True)
    (fun _ _ _ _ _ => ⟨trivial, fun token _ => Setting.fitsToken_of_all (fun _ => trivial) token⟩) fuel mode trivial
  obtain ⟨hkeeps, hbody⟩ := hend.finish (hlawful.setDepth depth')
  rw [← hsteps, ← hfuel] at hkeeps hbody
  have hroot : f.root = (Setting.atStart fun _ => True).body := hkeeps.root_eq (run_sound text).wellFormed hbody
  obtain ⟨habove, other, more, hcontent⟩ := hkeeps.watched (i, attributes) (by simp [Setting.watch])
  refine ⟨i, other, more, ?_, hcontent⟩
  rw [hroot]
  exact habove

/-- An element below a node is read again where what is below the node is written. -/
theorem made_again (hw : Writable dom) {root : NodeId} (hx : dom.content? (some x) = some (.element name attributes))
    (habove : dom.Above root x) (h : MadeAgain dom root x) :
    let f := Fragment.parse (dom.innerHtml (some root))
    ∃ y vocabulary other more, f.dom.Above f.root y ∧
      f.dom.content? (some y) = some (.element other ((readTag name attributes).attributesIn vocabulary ++ more)) := by
  have hroot := hw.wellFormed.above_lt habove
  have hall : ∀ content, (Setting.atStart fun _ => True).fits content := fun _ => trivial
  have hends := h.ends
  rw [hw.wellFormed.descendants_eq hroot] at hends
  have hleads := leadsTo_element hw hall hx habove hends (fun r hr hrx =>
    h.outside r ((hw.wellFormed.mem_descendants_iff hroot).mpr hr)
      ((hw.wellFormed.mem_descendants_iff (hw.wellFormed.above_lt hrx)).mpr hrx))
    (show Escapes [.outermost] from ⟨rfl, rfl⟩)
  obtain ⟨after, hafter, hread⟩ := hleads [] List.not_mem_nil
  obtain ⟨rest, hproceeds⟩ := hread 0 "</body></html>".toList
  have hchars : (dom.innerHtml (some root) ++ "</body></html>").toList =
      [] ++ (written [.outermost] ((dom.children (some root)).flatMap (dom.eventsOf dom.size)) ++ "</body></html>".toList) := by
    rw [String.toList_append, innerHtml, toList_write, (hw.wellFormed.sends_innerEvents root).1, List.nil_append]
  rw [← hchars] at hproceeds
  have htag : Proceeds (.atStart fun _ => True) 0 (normalizeLines (after ++ ((startTag name attributes).toList ++ rest))) 0
      (normalizeLines ((startTag name attributes).toList ++ rest)) :=
    proceeds_before hall (opensNothing_of_not_mem hafter) (by simp [toList_startTag]) (.refl _ _ _)
  obtain ⟨c, hc, hmode, hfirst⟩ := (hproceeds.trans htag) start (ready_start ⟨trivial, trivial, fun _ _ => trivial⟩).orderly (by decide)
  obtain ⟨c', mode, vocabulary, hwatches, hsecond⟩ := hc.watches_startTag hall hmode (hw.legible x _ hx)
    (h.placed name (by rw [name?, hx]; rfl)) rest
  obtain ⟨y, other, more, hy⟩ := watched_parse (hfirst.trans hsecond) hwatches
  exact ⟨y, vocabulary, other, more, hy⟩

end Construction

end Html
end Markup
end CrossRef
