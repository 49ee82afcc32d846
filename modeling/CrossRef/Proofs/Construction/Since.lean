import CrossRef.Proofs.Construction.Sound
import CrossRef.Proofs.Token.Plain

/-!
What has come of a sound construction. It is sound, and what is closed stays closed: of the elements that
are open, those that were there before were open before and stand in the same order, and one that has
another outside of it had one before. Here are the steps that all insertion modes share, and those of
formatting elements.
-/
namespace CrossRef
namespace Markup
namespace Html

theorem sublist_dropLast {α : Type} {l l' : List α} (h : l'.Sublist l) :
    l'.dropLast.Sublist l.dropLast := by
  simpa using h.reverse.tail.reverse

theorem reverse_take_sub_takeWhile {α : Type} (p : α → Bool) (l : List α) :
    (l.take (l.length - (l.reverse.takeWhile p).reverse.length)).reverse = l.reverse.dropWhile p := by
  have hsplit : l = (l.reverse.dropWhile p).reverse ++ (l.reverse.takeWhile p).reverse := by
    rw [← List.reverse_append, List.takeWhile_append_dropWhile, List.reverse_reverse]
  have hleft : l.take (l.length - (l.reverse.takeWhile p).reverse.length) =
      (l.reverse.dropWhile p).reverse := by
    conv_lhs => rw [hsplit]
    exact List.take_left' (by simp)
  rw [hleft, List.reverse_reverse]

/-- The arena had `n` nodes before, and these were the open elements. Nothing is placed outside of tables
between two tokens, unless that may have been so before. -/
structure Since (n : Nat) (start : List OpenElement) (fosters : Bool) (dom : Dom)
    (opened : List OpenElement) (isFostering : Bool) : Prop where
  sound : Holds dom opened
  size_le : n ≤ dom.size
  stays : (opened.filter (·.node < n)).Sublist start
  inner : (opened.dropLast.filter (·.node < n)).Sublist start.dropLast
  isFostering : isFostering → fosters

namespace Since

variable {n : Nat} {start opened opened' : List OpenElement} {fosters isFostering : Bool}
  {dom dom' : Dom}

theorem narrow (h : Since n start fosters dom opened isFostering) (hsub : opened'.Sublist opened) :
    Since n start fosters dom opened' isFostering :=
  ⟨h.sound.subset hsub.subset, h.size_le, (hsub.filter _).trans h.stays,
    ((sublist_dropLast hsub).filter _).trans h.inner, h.isFostering⟩

theorem grow (h : Since n start fosters dom opened isFostering) (hsound : Holds dom' opened)
    (hsize : dom.size ≤ dom'.size) : Since n start fosters dom' opened isFostering :=
  { h with sound := hsound, size_le := h.size_le.trans hsize }

/-- A new element is opened. -/
theorem push (h : Since n start fosters dom opened isFostering) {e : OpenElement} (he : n ≤ e.node)
    (hsound : Holds dom (e :: opened)) : Since n start fosters dom (e :: opened) isFostering := by
  have hnew : ¬ e.node < n := Nat.not_lt.mpr he
  refine { h with sound := hsound, stays := ?_, inner := ?_ }
  · simpa [hnew] using h.stays
  · have hinner := h.inner
    cases opened with
    | nil => simp
    | cons e' rest => simpa [hnew] using hinner

end Since

namespace Construction

abbrev Goes (n : Nat) (start : List OpenElement) (fosters : Bool) (c : Construction) : Prop :=
  Since n start fosters c.dom c.opened c.isFostering

variable {c : Construction} {n : Nat} {start : List OpenElement} {fosters : Bool}

theorem goes (h : c.Sound) : c.Goes c.dom.size c.opened c.isFostering :=
  ⟨h, le_rfl, List.filter_sublist, List.filter_sublist, id⟩

namespace Goes

/-! ### Closing elements -/

@[grind ←] theorem pop (h : c.Goes n start fosters) : c.pop.Goes n start fosters :=
  h.narrow (List.tail_sublist _)

@[grind ←] theorem popWhile (h : c.Goes n start fosters) (p : Name → Bool) :
    (c.popWhile p).Goes n start fosters :=
  h.narrow (List.dropWhile_sublist _)

@[grind ←] theorem popThrough (h : c.Goes n start fosters) (p : Name → Bool) :
    (c.popThrough p).Goes n start fosters :=
  (h.popWhile _).pop

@[grind ←] theorem popThroughNamed (h : c.Goes n start fosters) (label : String) :
    (c.popThroughNamed label).Goes n start fosters :=
  h.popThrough _

@[grind ←] theorem popTo (h : c.Goes n start fosters) (p : Name → Bool) :
    (c.popTo p).Goes n start fosters := h.popWhile _

@[grind ←] theorem removeOpen (h : c.Goes n start fosters) (node : NodeId) :
    (c.removeOpen node).Goes n start fosters :=
  h.narrow List.filter_sublist

@[grind ←] theorem closeImplied (h : c.Goes n start fosters) :
    c.closeImplied.Goes n start fosters := h.popWhile _

@[grind ←] theorem closeImpliedExcept (h : c.Goes n start fosters) (label : String) :
    (c.closeImpliedExcept label).Goes n start fosters :=
  h.popWhile _

@[grind ←] theorem closeParagraph (h : c.Goes n start fosters) :
    c.closeParagraph.Goes n start fosters :=
  (h.closeImpliedExcept "p").popThroughNamed "p"

@[grind ←] theorem closeParagraphInScope (h : c.Goes n start fosters) :
    c.closeParagraphInScope.Goes n start fosters := by
  unfold Construction.closeParagraphInScope
  split_ifs
  · exact h.closeParagraph
  · exact h

@[grind ←] theorem pushMarker (h : c.Goes n start fosters) :
    c.pushMarker.Goes n start fosters := h

@[grind ←] theorem clearFormatting (h : c.Goes n start fosters) :
    c.clearFormatting.Goes n start fosters := h

@[grind ←] theorem resetMode (h : c.Goes n start fosters) :
    c.resetMode.Goes n start fosters := h

@[grind ←] theorem closeOrdinary (h : c.Goes n start fosters) (label : String) :
    (c.closeOrdinary label).Goes n start fosters := by
  unfold Construction.closeOrdinary
  simp only
  split
  · exact h
  · next e outer hdrop =>
    split_ifs
    · exact h.narrow ((List.sublist_cons_self e outer).trans (hdrop ▸ List.drop_sublist _ _))
    · exact h

/-! ### Inserting -/

@[grind ←] theorem insertText (h : c.Goes n start fosters) (chars : List Char) :
    (c.insertText chars).Goes n start fosters := by
  have hsound := (Sound.placeAt h.sound (currentPlace_fits h.sound)
    (show c.dom.Accepts _ (.text (String.ofList chars)) from trivial)).1
  unfold Construction.insertText
  rw [placeAt_eq] at hsound ⊢
  exact h.grow hsound (Dom.size_le_size_place _ _ _)

/-- A new node is put at the current place. -/
theorem insertNew (h : c.Goes n start fosters) (content : Content) :
    ({ c with dom := (c.dom.create content).1 }.placeAt c.currentPlace
      (.node (some c.dom.size))).Goes n start fosters := by
  have hsound := (Sound.placeAt_create h.sound (currentPlace_fits h.sound) content).1
  rw [placeAt_eq] at hsound ⊢
  exact h.grow hsound (by simp [Dom.place])

@[grind ←] theorem insertComment (h : c.Goes n start fosters) (text : String) :
    (c.insertComment text).Goes n start fosters := h.insertNew (.comment text)

@[grind ←] theorem insertClosed (h : c.Goes n start fosters) (name : Name)
    (attributes : List Attribute) :
    (c.insertClosed name attributes).1.Goes n start fosters :=
  h.insertNew (.element name attributes)

@[grind ←] theorem insertOpen (h : c.Goes n start fosters) (name : Name)
    (attributes : List Attribute) :
    (c.insertOpen name attributes).1.Goes n start fosters := by
  have hclosed := h.insertClosed name attributes
  have hkeeps :=
    (Sound.placeAt_create h.sound (currentPlace_fits h.sound) (.element name attributes)).2
  exact hclosed.push h.size_le
    (hclosed.sound.cons (hkeeps.canHold _ (c.dom.canHold_size (by simp))) name)

@[grind ←] theorem openTag (h : c.Goes n start fosters) (tag : Tag) :
    (c.openTag tag).Goes n start fosters := h.insertOpen _ _

@[grind ←] theorem openBare (h : c.Goes n start fosters) (label : String) :
    (c.openBare label).Goes n start fosters := h.openTag _

@[grind ←] theorem insertVoid (h : c.Goes n start fosters) (tag : Tag) :
    (c.insertVoid tag).Goes n start fosters := h.insertClosed _ _

@[grind ←] theorem openText (h : c.Goes n start fosters) (tag : Tag) (mode : ReadingMode) :
    (c.openText tag mode).1.Goes n start fosters := { h.openTag tag with }

/-! ### Formatting elements -/

theorem reopen (h : c.Goes n start fosters) (before entries : List FormattingEntry) :
    (c.reopen before entries).Goes n start fosters := by
  induction entries generalizing c before with
  | nil => exact h
  | cons entry rest ih =>
    cases entry with
    | marker => exact ih h _
    | element node tag => exact ih (h.insertOpen _ _) _

@[grind ←] theorem reconstruct (h : c.Goes n start fosters) :
    c.reconstruct.Goes n start fosters := h.reopen _ _

@[grind ←] theorem openFormatting (h : c.Goes n start fosters) (tag : Tag) :
    (c.openFormatting tag).Goes n start fosters := by
  unfold Construction.openFormatting
  cases earliestOfThree? tag c.formatting with
  | none => exact h.insertOpen _ _
  | some node => exact insertOpen (c := { c with formatting := removeEntry node c.formatting }) h _ _

theorem size_moveInto (c : Construction) (place : Place) (node : NodeId) :
    (c.moveInto place node).dom.size = c.dom.size := by
  rw [moveInto_eq]
  split_ifs <;> simp

theorem isFostering_moveInto (c : Construction) (place : Place) (node : NodeId) :
    (c.moveInto place node).isFostering = c.isFostering := by
  rw [moveInto_eq]
  split_ifs <;> rfl

/-- What a split keeps is new. -/
theorem splitBetween_kept {s : Split} (hsize : n ≤ s.state.dom.size)
    (hkept : ∀ e ∈ s.kept, n ≤ e.node) (count : Nat) (between : List OpenElement) :
    n ≤ (splitBetween s count between).state.dom.size ∧
      (splitBetween s count between).state.isFostering = s.state.isFostering ∧
      ∀ e ∈ (splitBetween s count between).kept, n ≤ e.node := by
  induction between generalizing s count with
  | nil => exact ⟨hsize, rfl, hkept⟩
  | cons e outer ih =>
    unfold Construction.splitBetween
    simp only
    split
    · exact ih hsize hkept _
    · next tag _ =>
      split_ifs
      · exact ih (s := { s with
          state := { s.state with formatting := removeEntry e.node s.state.formatting } }) hsize hkept _
      · have hcopied := ih (s := s.copyAround e tag) ?_ ?_ (count + 1)
        · rw [Split.copyAround, isFostering_moveInto] at hcopied
          exact hcopied
        · rw [Split.copyAround, size_moveInto]
          simpa using Nat.le_succ_of_le hsize
        · intro e' he'
          rcases List.mem_append.mp he' with he' | he'
          · exact hkept e' he'
          · rw [List.mem_singleton.mp he']
            exact hsize

/-- Of the elements that are open after a split the copies are new. -/
theorem filter_copies {above kept outer : List OpenElement} {copy block : OpenElement}
    (hcopy : n ≤ copy.node) (hkept : ∀ e ∈ kept, n ≤ e.node) :
    (above ++ copy :: block :: (kept ++ outer)).filter (·.node < n) =
      (above ++ block :: outer).filter (·.node < n) := by
  have hnone : kept.filter (·.node < n) = [] :=
    List.filter_eq_nil_iff.mpr fun e he => by simpa using hkept e he
  simp [List.filter_cons, Nat.not_lt.mpr hcopy, hnone]

/-- Without the copies a split only takes elements away. -/
theorem split_sublist (above between outer : List OpenElement) (block e : OpenElement) :
    (above ++ block :: outer).Sublist (above ++ block :: (between ++ e :: outer)) :=
  List.Sublist.append_left (List.Sublist.cons_cons _
    ((List.sublist_cons_self e outer).trans (List.sublist_append_right _ _))) _

theorem split_sublist_dropLast {above kept : List OpenElement} {copy block : OpenElement}
    (between outer : List OpenElement) (e : OpenElement) (hcopy : n ≤ copy.node)
    (hkept : ∀ e ∈ kept, n ≤ e.node) :
    ((above ++ copy :: block :: (kept ++ outer)).dropLast.filter (·.node < n)).Sublist
      ((above ++ block :: (between ++ e :: outer)).dropLast.filter (·.node < n)) := by
  have hinit : ∀ (l : List OpenElement) (last : OpenElement), (l ++ [last]).dropLast = l :=
    fun l last => List.dropLast_concat
  rcases List.eq_nil_or_concat outer with rfl | ⟨rest, last, rfl⟩
  · refine ((List.dropLast_sublist _).filter _).trans ?_
    rw [filter_copies hcopy hkept]
    have hcut := hinit (above ++ block :: between) e
    rw [List.append_assoc, List.cons_append] at hcut
    rw [hcut]
    exact (List.Sublist.append_left (List.Sublist.cons_cons _ (List.nil_sublist _)) _).filter _
  · have hcut := hinit (above ++ block :: (between ++ e :: rest)) last
    have hcut' := hinit (above ++ copy :: block :: (kept ++ rest)) last
    simp only [List.append_assoc, List.cons_append] at hcut hcut'
    simp only [List.concat_eq_append, hcut, hcut']
    rw [filter_copies hcopy hkept]
    exact (split_sublist above between rest block e).filter _

/-- Around the block of a split there are new elements and some of those that were open. -/
theorem splitAround (h : c.Goes n start fosters) (node : NodeId) (tag : Tag)
    {above between outer : List OpenElement} {block e : OpenElement}
    (hopened : c.opened = above ++ block :: (between ++ e :: outer)) :
    (c.splitAround node tag above block between outer).Goes n start fosters := by
  have hsound : (c.splitAround node tag above block between outer).Sound := by
    refine Sound.splitAround h.sound node tag ?_ ?_ ?_ <;> rw [hopened]
    · exact List.subset_append_left _ _
    · simp
    · exact fun e' he' => by simp [he']
  obtain ⟨hsize, hfoster, hkept⟩ := splitBetween_kept (s := ⟨c, block.node, none, []⟩) h.size_le
    (by simp) 0 between
  have hcopy : ∀ s : Split, n ≤ s.state.dom.size → ∀ place : Place,
      n ≤ (s.state.moveInto place s.last).dom.size := fun s hs place => by rwa [size_moveInto]
  refine ⟨hsound, ?_, ?_, ?_, ?_⟩
  · simp only [Construction.splitAround, Dom.reparentChildren_eq, Dom.size_append, Dom.size_moveAll,
      Dom.size_create]
    exact (hcopy _ hsize _).trans (Nat.le_succ _)
  · refine List.Sublist.trans ?_ h.stays
    simp only [Construction.splitAround, List.append_assoc, List.cons_append]
    rw [filter_copies (hcopy _ hsize _) hkept, hopened]
    exact (split_sublist above between outer block e).filter _
  · refine List.Sublist.trans ?_ h.inner
    simp only [Construction.splitAround, List.append_assoc, List.cons_append]
    rw [hopened]
    exact split_sublist_dropLast between outer e (hcopy _ hsize _) hkept
  · simp only [Construction.splitAround]
    rw [isFostering_moveInto, hfoster]
    exact h.isFostering

@[grind ←] theorem closeFormattingRound (h : c.Goes n start fosters) (label : String) :
    (c.closeFormattingRound label).1.Goes n start fosters := by
  unfold Construction.closeFormattingRound
  split
  · exact h.closeOrdinary label
  · next node tag _ =>
    simp only
    split
    · exact h
    · next e outer hdrop =>
      have hopened : c.opened = c.opened.takeWhile (fun e => e.node ≠ node) ++ e :: outer := by
        rw [drop_length_takeWhile] at hdrop
        rw [← hdrop, List.takeWhile_append_dropWhile]
      generalize hinner : c.opened.takeWhile (fun e => decide (e.node ≠ node)) = inner at *
      split_ifs
      · exact h
      · split
        · have hclosed : Goes n start fosters { c with opened := outer } := by
            refine h.narrow ?_
            rw [hopened]
            exact (List.sublist_cons_self e outer).trans (List.sublist_append_right _ _)
          exact hclosed
        · next block above habove =>
          have hsplit : inner = above.reverse ++ block ::
              (inner.reverse.takeWhile fun e => !isSpecial e.name).reverse := by
            rw [reverse_take_sub_takeWhile] at habove
            rw [← List.reverse_inj, List.reverse_append, List.reverse_cons, List.reverse_reverse,
              List.reverse_reverse, List.append_assoc, List.singleton_append, ← habove,
              List.takeWhile_append_dropWhile]
          refine h.splitAround node tag (e := e) ?_
          rw [hopened]
          nth_rewrite 1 [hsplit]
          rw [List.append_assoc, List.cons_append]

theorem closeFormattingRounds (h : c.Goes n start fosters) (label : String) (k : Nat) :
    (c.closeFormattingRounds label k).Goes n start fosters := by
  induction k generalizing c with
  | zero => exact h
  | succ k ih =>
    have hround := h.closeFormattingRound label
    rw [Construction.closeFormattingRounds]
    split
    · next c' hc' => exact ih (by simpa [hc'] using hround)
    · next c' hc' => simpa [hc'] using hround

@[grind ←] theorem closeFormatting (h : c.Goes n start fosters) (label : String) :
    (c.closeFormatting label).Goes n start fosters := by
  unfold Construction.closeFormatting
  split
  · split_ifs
    · exact h.pop
    · exact h.closeFormattingRounds label 8
  · exact h

@[grind ←] theorem closeOuterLink (h : c.Goes n start fosters) :
    c.closeOuterLink.Goes n start fosters := by
  unfold Construction.closeOuterLink
  split
  · exact h
  · next node _ _ =>
    exact removeOpen (c := { c.closeFormatting "a" with
      formatting := removeEntry node (c.closeFormatting "a").formatting }) (h.closeFormatting "a") node

end Goes
end Construction
end Html
end Markup
end CrossRef
