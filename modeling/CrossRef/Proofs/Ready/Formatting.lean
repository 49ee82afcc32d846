import CrossRef.Proofs.Ready.Splitting

/-!
Formatting elements keep a construction ready, when they are opened again, closed or split.
-/
namespace CrossRef
namespace Markup
namespace Html

theorem mem_of_latestNamed? {label : String} {entries : List FormattingEntry} {node : NodeId} {tag : Tag}
    (h : latestNamed? label entries = some (node, tag)) : .element node tag ∈ entries ∧ tag.label = label := by
  obtain ⟨entry, hentry, hfound⟩ := List.exists_of_findSome?_eq_some h
  cases entry with
  | marker => simp at hfound
  | element node' tag' =>
    dsimp only at hfound
    split_ifs at hfound with hlabel
    obtain ⟨rfl, rfl⟩ := Prod.mk.inj (Option.some_inj.mp hfound)
    exact ⟨(List.takeWhile_sublist _).subset hentry, hlabel⟩

namespace Construction
namespace Ready

open Dom

variable {σ : Setting} {modes : List InsertionMode} {mode : InsertionMode} {c : Construction} {tag : Tag}
  {entries before : List FormattingEntry} {label : String}

/-! ### The list of formatting elements -/

theorem setFormatting (h : c.Ready σ modes mode) (hlisted : Listed σ c.dom entries) :
    Ready σ modes mode { c with formatting := entries } := { h with listed := hlisted }

theorem pushMarker (h : c.Ready σ modes mode) : c.pushMarker.Ready σ modes mode :=
  h.setFormatting fun node tag hmem => h.listed node tag (by simpa using hmem)

theorem clearFormatting (h : c.Ready σ modes mode) : c.clearFormatting.Ready σ modes mode :=
  h.setFormatting (h.listed.subset fun _ hentry =>
    (List.dropWhile_sublist _).subset (List.mem_of_mem_tail hentry))

theorem removeEntry (h : c.Ready σ modes mode) (node : NodeId) :
    Ready σ modes mode { c with formatting := removeEntry node c.formatting } :=
  h.setFormatting (h.listed.removeEntry node)

/-! ### Opening -/

/-- A formatting element is opened and listed. -/
theorem insertListed (h : c.Ready σ modes mode) (hmode : mode ≠ .inColumnGroup) (hlabel : isFormatting tag.label)
    (hfits : σ.FitsTag tag) (hbefore : Listed σ c.dom before) :
    let c' := (c.insertOpen (.html tag.label) (tag.attributesIn .html)).1
    Makes σ (tag.attributesIn .html) modes mode c' ∧ Listed σ c'.dom (.element c.dom.size tag :: before) := by
  intro c'
  have hmade := h.insertOpen (hfits.html (ne_body_of_isFormatting hlabel)) (isOrdinary_of_isFormatting hlabel) hmode
  rw [Setting.inside_eq (not_isTemplate_of_isFormatting hlabel)] at hmade
  refine ⟨hmade, ?_⟩
  have hdom : c'.dom = c.inserted (.element (.html tag.label) (tag.attributesIn .html)) := by
    simp only [c', insertOpen_eq_push]
  rw [hdom]
  exact (hbefore.grow (h.extends_inserted (hfits.html (ne_body_of_isFormatting hlabel)))).cons hlabel hfits (by rw [name?, content?_inserted])

theorem reopen (h : c.Ready σ modes mode) (hmode : mode ≠ .inColumnGroup) (hbefore : Listed σ c.dom before)
    (hentries : Listed σ c.dom entries) : (c.reopen before entries).Ready σ modes mode := by
  induction entries generalizing c before with
  | nil => exact h.setFormatting hbefore
  | cons entry rest ih =>
    have hrest := hentries.subset (List.subset_cons_self entry rest)
    cases entry with
    | marker => exact ih h (fun node tag hmem => hbefore node tag (by simpa using hmem)) hrest
    | element node tag =>
      obtain ⟨hlabel, hfits, -⟩ := hentries node tag List.mem_cons_self
      obtain ⟨hmade, hlisted⟩ := h.insertListed hmode hlabel hfits hbefore
      have hdom : (c.insertOpen (.html tag.label) (tag.attributesIn .html)).1.dom =
          c.inserted (.element (.html tag.label) (tag.attributesIn .html)) := by simp only [insertOpen_eq_push]
      have hrest' : Listed σ (c.insertOpen (.html tag.label) (tag.attributesIn .html)).1.dom rest := by
        rw [hdom]
        exact hrest.grow (h.extends_inserted (hfits.html (ne_body_of_isFormatting hlabel)))
      have hnode : (c.insertOpen (.html tag.label) (tag.attributesIn .html)).2 = c.dom.size := by
        rw [insertOpen_eq_push]
      rw [Construction.reopen]
      dsimp only
      rw [hnode]
      exact ih hmade.ready hlisted hrest'

theorem reconstruct (h : c.Ready σ modes mode) (hmode : mode ≠ .inColumnGroup) :
    c.reconstruct.Ready σ modes mode := by
  refine h.reopen hmode (h.listed.subset (List.drop_subset _ _)) (h.listed.subset fun entry hentry => ?_)
  exact (List.takeWhile_sublist _).subset (List.mem_reverse.mp hentry)

theorem openFormatting (h : c.Ready σ modes mode) (hmode : mode ≠ .inColumnGroup) (hlabel : isFormatting tag.label)
    (hfits : σ.FitsTag tag) : Makes σ (tag.attributesIn .html) modes mode (c.openFormatting tag) := by
  have hopened : ∀ c : Construction, c.Ready σ modes mode → Makes σ (tag.attributesIn .html) modes mode
      { (c.insertOpen (.html tag.label) (tag.attributesIn .html)).1 with
        formatting := .element c.dom.size tag :: c.formatting } := by
    intro c h
    obtain ⟨⟨i, hmade⟩, hlisted⟩ := h.insertListed hmode hlabel hfits h.listed
    exact ⟨i, hmade.setFormatting hlisted⟩
  unfold Construction.openFormatting
  simp only [insertOpen_eq_push] at hopened ⊢
  split
  · next node _ => exact hopened _ (h.removeEntry node)
  · exact hopened _ h

/-! ### Closing -/

theorem closeFormattingRound (h : c.Ready σ modes mode) (hlabel : isFormatting label) :
    (c.closeFormattingRound label).1.Ready σ modes mode := by
  unfold Construction.closeFormattingRound
  split
  · refine h.closeOrdinary ?_ ?_
    · exact not_outermost_of_isOrdinary (isOrdinary_of_isFormatting hlabel)
    · exact fun hcontextual => absurd hcontextual
        (by simp [not_isContextual_of_isOrdinary (isOrdinary_of_isFormatting hlabel)])
  · next node tag hlatest =>
    dsimp only
    rw [drop_length_takeWhile]
    split
    · exact h.removeEntry node
    · next e outer hdrop =>
      obtain ⟨hmem, hlatestLabel⟩ := mem_of_latestNamed? hlatest
      obtain ⟨htag, hfits, hnode⟩ := h.listed node tag hmem
      have hsplit := split_of_dropWhile hdrop
      have hbefore : ∀ x ∈ c.opened.takeWhile (fun e => decide (e.node ≠ node)), x.node ≠ node := fun x hx => by
        simpa using List.mem_takeWhile_imp hx
      have henode : e.node = node := by
        have hhead := List.head?_dropWhile_not (fun e : OpenElement => decide (e.node ≠ node)) c.opened
        rw [hdrop] at hhead
        simpa using hhead
      have hename : isOrdinary e.name := by
        have hnamed := h.held.named e (by rw [hsplit]; simp)
        rw [henode, hnode] at hnamed
        rw [← Option.some_inj.mp hnamed]
        exact isOrdinary_of_isFormatting htag
      split_ifs with hscope
      · exact h
      · generalize c.opened.takeWhile (fun e => decide (e.node ≠ node)) = inner at *
        have hinner := h.ordinary_before hsplit hename fun x hx => by
          refine not_endsFostering endsScope (by decide) _ ?_
          have htarget : inScope endsScope (fun e => decide (e.node = node)) (inner ++ e :: outer) := by
            rw [← hsplit]
            simpa using hscope
          exact not_ends_of_inScope htarget (fun x hx => by simpa using hbefore x hx) x hx
        have hall : ∀ x ∈ inner ++ [e], isOrdinary x.name := fun x hx => by
          rcases List.mem_append.mp hx with hx | hx
          · exact hinner x hx
          · rw [List.mem_singleton.mp hx]
            exact hename
        split
        · have hclose : c.opened = (inner ++ [e]) ++ outer := by rw [hsplit, List.append_assoc]; rfl
          exact (h.closeInner hclose hall).removeEntry node
        · next block above habove =>
          have hparts : inner = above.reverse ++ block ::
              (inner.reverse.takeWhile fun e => !isSpecial e.name).reverse := by
            rw [reverse_take_sub_takeWhile] at habove
            rw [← List.reverse_inj, List.reverse_append, List.reverse_cons, List.reverse_reverse,
              List.reverse_reverse, List.append_assoc, List.singleton_append, ← habove,
              List.takeWhile_append_dropWhile]
          refine h.splitAround node htag hfits (e := e) ?_ fun x hx => ?_
          · rw [hsplit]
            nth_rewrite 1 [hparts]
            rw [List.append_assoc, List.cons_append]
          · have hlist : above.reverse ++ block :: ((inner.reverse.takeWhile fun e => !isSpecial e.name).reverse ++
                [e]) = inner ++ [e] := by
              nth_rewrite 2 [hparts]
              rw [List.append_assoc, List.cons_append]
            exact hall x (hlist ▸ hx)

theorem closeFormattingRounds (h : c.Ready σ modes mode) (hlabel : isFormatting label) (n : Nat) :
    (c.closeFormattingRounds label n).Ready σ modes mode := by
  induction n generalizing c with
  | zero => exact h
  | succ n ih =>
    have hround := h.closeFormattingRound hlabel
    rw [Construction.closeFormattingRounds]
    split
    · next c' hc' => exact ih (by simpa [hc'] using hround)
    · next c' hc' => simpa [hc'] using hround

theorem closeFormatting (h : c.Ready σ modes mode) (hlabel : isFormatting label) :
    (c.closeFormatting label).Ready σ modes mode := by
  unfold Construction.closeFormatting
  split
  · next e he =>
    split_ifs with hcurrent
    · refine h.pop fun e' he' => ?_
      obtain rfl : e = e' := Option.some_inj.mp (he.symm.trans he')
      simp only [Bool.and_eq_true] at hcurrent
      exact isOrdinary_of_isHtmlNamed (isOrdinary_of_isFormatting hlabel) hcurrent.1
    · exact h.closeFormattingRounds hlabel 8
  · exact h

theorem closeOuterLink (h : c.Ready σ modes mode) : c.closeOuterLink.Ready σ modes mode := by
  unfold Construction.closeOuterLink
  split
  · exact h
  · next node tag hlatest =>
    have hclosed := (h.closeFormatting (show isFormatting "a" by decide)).removeEntry node
    obtain ⟨hmem, hlabel⟩ := mem_of_latestNamed? hlatest
    obtain ⟨-, -, hnode⟩ := h.listed node tag hmem
    refine hclosed.removeOpen fun e he heq => ?_
    -- a node that was there before was open before
    have hlt : e.node < c.dom.size := heq ▸ lt_size_of_name? (by rw [hnode]; rfl)
    have hold := ((goes h.sound).closeFormatting "a").stays.subset (List.mem_filter.mpr ⟨he, by simpa using hlt⟩)
    have hnamed := h.held.named e hold
    rw [heq, hnode, hlabel] at hnamed
    rw [← Option.some_inj.mp hnamed]
    decide

end Ready
end Construction
end Html
end Markup
end CrossRef
