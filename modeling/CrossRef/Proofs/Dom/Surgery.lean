import CrossRef.Proofs.Dom.WellFormed

/-!
Surgery on well-formed arenas. Appending, inserting and detaching each change one list of children
and one parent link, and they keep the arena well formed.
-/
namespace CrossRef
namespace Markup
namespace Dom

variable {dom dom' : Dom} {p q c s n i a : NodeId} {l xs ys : List NodeId}

/-! ### The nodes above a node -/

theorem Above.mono (hparent : ∀ i a, dom'.parent? (some i) = some a → dom.parent? (some i) = some a)
    (h : dom'.Above a i) : dom.Above a i :=
  Relation.TransGen.mono (fun _ _ => hparent _ _) _ _ h

theorem Encloses.mono
    (hparent : ∀ i a, dom'.parent? (some i) = some a → dom.parent? (some i) = some a)
    (h : dom'.Encloses a i) : dom.Encloses a i :=
  Relation.ReflTransGen.mono (fun _ _ => hparent _ _) _ _ h

/-- A way up that is new goes through the new parent link. -/
theorem above_attach
    (hparent : ∀ i, dom'.parent? (some i) = if i = c then some p else dom.parent? (some i))
    (h : dom'.Above a i) : dom.Above a i ∨ (dom.Encloses a p ∧ dom.Encloses c i) := by
  have hstep : ∀ i b, dom'.parent? (some i) = some b →
      (i = c ∧ b = p) ∨ dom.parent? (some i) = some b := by
    intro i b hb
    rw [hparent] at hb
    split_ifs at hb with hi
    · exact .inl ⟨hi, (Option.some_inj.mp hb).symm⟩
    · exact .inr hb
  induction h with
  | single hi =>
    rcases hstep _ _ hi with ⟨rfl, rfl⟩ | hi
    · exact .inr ⟨.refl, .refl⟩
    · exact .inl (.single hi)
  | tail _ hi ih =>
    rcases hstep _ _ hi with ⟨rfl, rfl⟩ | hi
    · rcases ih with ih | ih
      · exact .inr ⟨ih.to_reflTransGen, .refl⟩
      · exact .inr ⟨ih.1, .refl⟩
    · rcases ih with ih | ih
      · exact .inl (ih.tail hi)
      · exact .inr ⟨ih.1, ih.2.tail hi⟩

theorem acyclic_attach (hacyclic : ∀ i, ¬ dom.Above i i) (hcp : ¬ dom.Encloses c p)
    (hparent : ∀ i, dom'.parent? (some i) = if i = c then some p else dom.parent? (some i)) :
    ∀ i, ¬ dom'.Above i i := by
  intro i h
  rcases above_attach hparent h with h | ⟨hip, hci⟩
  · exact hacyclic i h
  · exact hcp (hci.trans hip)

/-! ### Appending -/

namespace ChildList

/-- A detached node is in no list of children. -/
theorem not_mem (h : dom.ChildList p l) (hc : dom.parent? (some c) = none) : c ∉ l := by
  simp [h.mem_iff, hc]

theorem append (h : dom.ChildList p l) (hp : p < dom.size) (hc : c < dom.size)
    (hdet : dom.parent? (some c) = none) :
    (dom.append (some p) (some c)).ChildList p (l ++ [c]) where
  first := by simp [firstChild?_append, hp, h.first, List.head?_append]
  last := by simp [lastChild?_append, hp]
  previous_head d hd := by
    cases l with
    | nil =>
      obtain rfl : c = d := by simpa using hd
      simp [previous?_append, hc, h.last]
    | cons b l =>
      obtain rfl : b = d := by simpa using hd
      have hbc : b ≠ c := fun hb => h.not_mem hdet (by simp [hb])
      rw [previous?_append _ _ _ _ (h.lt_size (by simp)), if_neg hbc]
      exact h.previous_head b (by simp)
  next_last d hd := by
    obtain rfl : c = d := by simpa using hd
    have hlast : dom.lastChild? (some p) ≠ some c := fun hl =>
      h.not_mem hdet (List.mem_of_mem_getLast? (h.last ▸ hl))
    simp [next?_append, hc, hlast]
  neighbours := by
    refine List.isChain_append.mpr ⟨?_, .singleton c, ?_⟩
    · refine h.neighbours.imp_of_mem_imp fun a b ha hb hab => ?_
      have hlast : dom.lastChild? (some p) ≠ some a := fun hl => by
        have := h.next_last a (h.last ▸ hl)
        simp [this] at hab
      have hac : a ≠ c := fun h' => h.not_mem hdet (h' ▸ ha)
      have hbc : b ≠ c := fun h' => h.not_mem hdet (h' ▸ hb)
      simpa [next?_append, previous?_append, h.lt_size ha, h.lt_size hb, hlast, hac, hbc] using hab
    · intro a ha b hb
      obtain rfl : c = b := by simpa using hb
      have hlast : dom.lastChild? (some p) = some a := h.last.trans ha
      simp [next?_append, previous?_append, h.lt_size (List.mem_of_mem_getLast? ha), hc, hlast]
  nodup := by
    refine List.nodup_append.mpr ⟨h.nodup, by simp, fun a ha b hb hab => h.not_mem hdet ?_⟩
    rwa [← List.mem_singleton.mp hb, ← hab]
  mem_iff d := by
    rw [parent?_append _ _ _ hc]
    split_ifs with hd
    · simp [hd]
    · simp [hd, h.mem_iff]

/-- The children of other nodes are not concerned. -/
theorem append_of_ne (h : dom.ChildList q l) (hq : q < dom.size) (hqp : q ≠ p)
    (hp : dom.ChildList p xs) (hc : c < dom.size) (hdet : dom.parent? (some c) = none) :
    (dom.append (some p) (some c)).ChildList q l := by
  refine h.congr ?_ ?_ (fun d => ?_) fun d hd => ?_
  · simp [firstChild?_append, hq, hqp]
  · simp [lastChild?_append, hq, hqp]
  · rw [parent?_append _ _ _ hc]
    split_ifs with hd
    · simp [hd, hdet, hqp.symm]
    · rfl
  · have hdc : d ≠ c := fun h' => h.not_mem hdet (h' ▸ hd)
    have hlast : dom.lastChild? (some p) ≠ some d := fun hl => by
      have hdp := (hp.mem_iff d).mp (List.mem_of_mem_getLast? (hp.last ▸ hl))
      exact hqp (Option.some_inj.mp (((h.mem_iff d).mp hd).symm.trans hdp))
    simp [next?_append, previous?_append, h.lt_size hd, hdc, hlast]

end ChildList

theorem WellFormed.append (h : dom.WellFormed) (hp : p < dom.size) (hc : c < dom.size)
    (hdet : dom.parent? (some c) = none) (hcp : ¬ dom.Encloses c p) :
    (dom.append (some p) (some c)).WellFormed := by
  have hparent := parent?_append dom p c hc
  obtain ⟨xs, hxs⟩ := h.childList p hp
  refine .of_childLists (fun i q hq => ?_) (fun q hq => ?_) (fun i hi => ?_)
    (acyclic_attach h.acyclic hcp hparent)
  · rw [hparent] at hq
    split_ifs at hq with hi
    · simpa [← Option.some_inj.mp hq] using hp
    · simpa using h.parent_lt hq
  · rw [size_append] at hq
    by_cases hqp : q = p
    · exact ⟨xs ++ [c], hqp ▸ hxs.append hp hc hdet⟩
    · obtain ⟨l, hl⟩ := h.childList q hq
      exact ⟨l, hl.append_of_ne hq hqp hxs hc hdet⟩
  · rw [hparent] at hi
    split_ifs at hi with hic
    by_cases hlt : i < dom.size
    · have hlast : dom.lastChild? (some p) ≠ some i := fun hl =>
        hxs.not_mem hi (List.mem_of_mem_getLast? (hxs.last ▸ hl))
      simpa [previous?_append, next?_append, hlt, hic, hlast] using h.alone i hi
    · have hn := (node?_eq_none_iff dom i).mpr (Nat.le_of_not_lt hlt)
      simp [previous?, next?, node?_append, hn]

/-! ### Inserting -/

namespace ChildList

/-- What stands from `s` on does not stand before it, and not twice. -/
theorem not_before (h : dom.ChildList p (xs ++ s :: ys)) {d : NodeId} (hd : d ∈ s :: ys) :
    dom.previous? (some s) ≠ some d := fun hsd =>
  (List.nodup_append.mp h.nodup).2.2 d (List.mem_of_mem_getLast? (h.previous?_eq ▸ hsd)) d hd rfl

theorem ne_of_mem_before (h : dom.ChildList p (xs ++ s :: ys)) {d : NodeId} (hd : d ∈ xs) : d ≠ s :=
  (List.nodup_append.mp h.nodup).2.2 d hd s (by simp)

/-- Around a node that is put in before `s` the neighbours are linked, and the others stay linked. -/
theorem neighbours_insertBefore (h : dom.ChildList p (xs ++ s :: ys)) (hn : n < dom.size)
    (hdet : dom.parent? (some n) = none) :
    (xs ++ n :: s :: ys).IsChain fun a b =>
      (dom.insertBefore (some s) (some n)).next? (some a) = some b ∧
        (dom.insertBefore (some s) (some n)).previous? (some b) = some a := by
  have hs : s < dom.size := h.lt_size (by simp)
  have hne : ∀ d ∈ xs ++ s :: ys, d ≠ n := fun d hd hdn => h.not_mem hdet (hdn ▸ hd)
  have hnbefore : dom.previous? (some s) ≠ some n := fun hsn =>
    hne n (h.mem_of_side (by simp) (.inl hsn)) rfl
  obtain ⟨hx, hy, -⟩ := List.isChain_append.mp h.neighbours
  refine List.isChain_append.mpr ⟨?_, List.isChain_cons_cons.mpr ⟨?_, ?_⟩, fun a ha b hb => ?_⟩
  · refine hx.imp_of_mem_imp fun a b ha hb hab => ?_
    have ha' : a ∈ xs ++ s :: ys := List.mem_append_left _ ha
    have hb' : b ∈ xs ++ s :: ys := List.mem_append_left _ hb
    have hbs := h.ne_of_mem_before hb
    have hsa : dom.previous? (some s) ≠ some a := fun hsa => by
      have has := (h.previous?_eq_some_iff ha' (by simp)).mp hsa
      exact hbs (Option.some_inj.mp (hab.1.symm.trans has))
    simpa [next?_insertBefore, previous?_insertBefore, hs, h.lt_size ha', h.lt_size hb', hsa,
      hne a ha', hne b hb', hbs] using hab
  · simp [next?_insertBefore, previous?_insertBefore, hs, hn, hnbefore]
  · refine hy.imp_of_mem_tail_imp fun a b ha hb hab => ?_
    have ha' : a ∈ xs ++ s :: ys := List.mem_append_right _ ha
    have hb' : b ∈ xs ++ s :: ys := List.mem_append_right _ (List.mem_of_mem_tail hb)
    have hbs : b ≠ s := fun hbs =>
      (List.nodup_cons.mp (List.nodup_append.mp h.nodup).2.1).1 (hbs ▸ hb)
    simpa [next?_insertBefore, previous?_insertBefore, hs, h.lt_size ha', h.lt_size hb',
      h.not_before ha, hne a ha', hne b hb', hbs] using hab
  · obtain rfl : n = b := by simpa using hb
    have ha' : a ∈ xs ++ s :: ys := by simp [List.mem_of_mem_getLast? ha]
    simp [next?_insertBefore, previous?_insertBefore, hs, hn, h.lt_size ha', h.previous?_eq,
      Option.mem_def.mp ha, (hne s (by simp)).symm]

theorem insertBefore (h : dom.ChildList p (xs ++ s :: ys)) (hp : p < dom.size)
    (hn : n < dom.size) (hdet : dom.parent? (some n) = none) :
    (dom.insertBefore (some s) (some n)).ChildList p (xs ++ n :: s :: ys) where
  first := by
    have hs : s < dom.size := h.lt_size (by simp)
    have hparent : dom.parent? (some s) = some p := (h.mem_iff s).mp (by simp)
    cases xs <;> simp [firstChild?_insertBefore, hs, hp, h.previous?_eq, hparent, h.first]
  last := by
    have hs : s < dom.size := h.lt_size (by simp)
    simp [lastChild?_insertBefore, hs, h.last, List.getLast?_append]
  previous_head d hd := by
    have hs : s < dom.size := h.lt_size (by simp)
    cases xs with
    | nil =>
      obtain rfl : n = d := by simpa using hd
      have hns : n ≠ s := fun hns => h.not_mem hdet (by simp [hns])
      simp [previous?_insertBefore, hs, hn, hns, h.previous?_eq]
    | cons b xs =>
      obtain rfl : b = d := by simpa using hd
      have hbn : b ≠ n := fun hbn => h.not_mem hdet (by simp [← hbn])
      have hbs : b ≠ s := h.ne_of_mem_before List.mem_cons_self
      have hb := h.previous_head b (by simp)
      simp [previous?_insertBefore, hs, h.lt_size, hbn, hbs, hb]
  next_last d hd := by
    have hs : s < dom.size := h.lt_size (by simp)
    have hd' : d ∈ (s :: ys).getLast? := by simpa [List.getLast?_append] using hd
    have hmem := List.mem_of_mem_getLast? hd'
    have hmem' : d ∈ xs ++ s :: ys := List.mem_append_right xs hmem
    have hdn : d ≠ n := fun hdn => h.not_mem hdet (hdn ▸ hmem')
    rw [next?_insertBefore n hs d (h.lt_size hmem'), if_neg (h.not_before hmem), if_neg hdn]
    exact h.next_last d (by simpa [List.getLast?_append] using hd')
  neighbours := h.neighbours_insertBefore hn hdet
  nodup := List.nodup_middle.mpr (List.nodup_cons.mpr ⟨h.not_mem hdet, h.nodup⟩)
  mem_iff d := by
    have hs : s < dom.size := h.lt_size (by simp)
    have hparent : dom.parent? (some s) = some p := (h.mem_iff s).mp (by simp)
    rw [parent?_insertBefore n hs hn]
    split_ifs with hd
    · simp [hd, hparent]
    · rw [← h.mem_iff]
      simp [hd]

theorem insertBefore_of_not_mem (h : dom.ChildList q l) (hwf : dom.WellFormed) (hq : q < dom.size)
    (hs : s ∉ l) (hslt : s < dom.size) (hn : n < dom.size)
    (hdet : dom.parent? (some n) = none) :
    (dom.insertBefore (some s) (some n)).ChildList q l := by
  have hsq : dom.parent? (some s) ≠ some q := fun hsq => hs ((h.mem_iff s).mpr hsq)
  refine h.congr ?_ ?_ (fun d => ?_) fun d hd => ?_
  · simp [firstChild?_insertBefore, hslt, hq, hsq]
  · exact lastChild?_insertBefore n hslt q
  · rw [parent?_insertBefore n hslt hn]
    split_ifs with hd
    · simp [hd, hsq, hdet]
    · rfl
  · have hds : d ≠ s := fun hds => hs (hds ▸ hd)
    have hdn : d ≠ n := fun hdn => h.not_mem hdet (hdn ▸ hd)
    have hsd : dom.previous? (some s) ≠ some d := fun hn =>
      hsq ((hwf.parent?_of_side (.inl hn)).symm.trans ((h.mem_iff d).mp hd))
    simp [next?_insertBefore, previous?_insertBefore, hslt, h.lt_size hd, hds, hdn, hsd]

end ChildList

theorem WellFormed.insertBefore (h : dom.WellFormed) (hs : dom.parent? (some s) = some p)
    (hn : n < dom.size) (hdet : dom.parent? (some n) = none) (hns : ¬ dom.Encloses n s) :
    (dom.insertBefore (some s) (some n)).WellFormed := by
  have hslt := lt_size_of_parent? hs
  have hparent := parent?_insertBefore n hslt hn
  simp only [hs] at hparent
  have hnp : ¬ dom.Encloses n p := fun hnp => hns (hnp.tail hs)
  refine .of_childLists (fun i q hq => ?_) (fun q hq => ?_) (fun i hi => ?_)
    (acyclic_attach h.acyclic hnp hparent)
  · rw [hparent] at hq
    split_ifs at hq with hi
    · simpa [← Option.some_inj.mp hq] using h.parent_lt hs
    · simpa using h.parent_lt hq
  · rw [size_insertBefore] at hq
    obtain ⟨l, hl⟩ := h.childList q hq
    by_cases hmem : s ∈ l
    · obtain ⟨xs, ys, rfl⟩ := List.append_of_mem hmem
      exact ⟨_, hl.insertBefore hq hn hdet⟩
    · exact ⟨l, hl.insertBefore_of_not_mem h hq hmem hslt hn hdet⟩
  · rw [hparent] at hi
    split_ifs at hi with hin
    have his : i ≠ s := fun his => by simp [his, hs] at hi
    have hsi : dom.previous? (some s) ≠ some i := fun hn => by
      simp [h.parent?_of_side (.inl hn), hs] at hi
    by_cases hlt : i < dom.size
    · simpa [previous?_insertBefore, next?_insertBefore, hslt, hlt, hin, his, hsi] using h.alone i hi
    · have hnone := (node?_eq_none_iff dom i).mpr (Nat.le_of_not_lt hlt)
      simp [previous?, next?, node?_insertBefore n hslt, hnone]

/-! ### Detaching -/

namespace ChildList

/-- What stays in the list when `c` is taken out was in it. -/
theorem mem_of_mem_without (c : NodeId) {d : NodeId} (hd : d ∈ xs ++ ys) : d ∈ xs ++ c :: ys :=
  ((List.sublist_cons_self c ys).append_left xs).subset hd

theorem ne_of_mem_without (h : dom.ChildList p (xs ++ c :: ys)) {d : NodeId} (hd : d ∈ xs ++ ys) :
    d ≠ c := fun hdc =>
  (List.nodup_cons.mp (List.nodup_middle.mp h.nodup)).1 (hdc ▸ hd)

/-- Two neighbours that both stay were neighbours before, so neither stood next to `c`. -/
theorem neighbours_detach (h : dom.ChildList p (xs ++ c :: ys)) {a b : NodeId} (ha : a ∈ xs ++ ys)
    (hb : b ∈ xs ++ ys) (hab : dom.next? (some a) = some b ∧ dom.previous? (some b) = some a) :
    (dom.detach (some c)).next? (some a) = some b ∧
      (dom.detach (some c)).previous? (some b) = some a := by
  have ha' := mem_of_mem_without c ha
  have hb' := mem_of_mem_without c hb
  have hca : dom.previous? (some c) ≠ some a := fun hca => by
    have hac := (h.previous?_eq_some_iff ha' (by simp)).mp hca
    exact h.ne_of_mem_without hb (Option.some_inj.mp (hab.1.symm.trans hac))
  have hcb : dom.next? (some c) ≠ some b := fun hcb => by
    have hbc := (h.previous?_eq_some_iff (by simp) hb').mpr hcb
    exact h.ne_of_mem_without ha (Option.some_inj.mp (hab.2.symm.trans hbc))
  simpa [next?_detach, previous?_detach, h.lt_size ha', h.lt_size hb', h.ne_of_mem_without ha,
    h.ne_of_mem_without hb, hca, hcb] using hab

theorem detach (h : dom.ChildList p (xs ++ c :: ys)) (hp : p < dom.size) :
    (dom.detach (some c)).ChildList p (xs ++ ys) where
  first := by
    have hparent : dom.parent? (some c) = some p := (h.mem_iff c).mp (by simp)
    cases xs <;> simp [firstChild?_detach, hp, h.previous?_eq, h.next?_eq, hparent, h.first]
  last := by
    have hparent : dom.parent? (some c) = some p := (h.mem_iff c).mp (by simp)
    rcases ys.eq_nil_or_concat with rfl | ⟨init, b, rfl⟩
    · simp [lastChild?_detach, hp, h.previous?_eq, h.next?_eq, hparent]
    · have hl : (c :: (init ++ [b])).getLast? = some b := List.getLast?_concat (l := c :: init)
      simp [lastChild?_detach, hp, h.next?_eq, h.last, hl]
  previous_head d hd := by
    have hd' := List.mem_of_mem_head? hd
    have hmem := mem_of_mem_without c hd'
    rw [previous?_detach _ _ _ (h.lt_size hmem), if_neg (h.ne_of_mem_without hd')]
    cases xs with
    | nil =>
      have hd : ys.head? = some d := hd
      simp [h.next?_eq, h.previous?_eq, hd]
    | cons b xs =>
      obtain rfl : b = d := by simpa using hd
      have hcb : dom.next? (some c) ≠ some b := fun hcb => by
        have := (h.previous?_eq_some_iff (by simp) hmem).mpr hcb
        simp [h.previous_head b (by simp)] at this
      simp [hcb, h.previous_head b (by simp)]
  next_last d hd := by
    have hd' := List.mem_of_mem_getLast? hd
    have hmem := mem_of_mem_without c hd'
    rw [next?_detach _ _ _ (h.lt_size hmem), if_neg (h.ne_of_mem_without hd')]
    rcases ys.eq_nil_or_concat with rfl | ⟨init, b, rfl⟩
    · simp [h.next?_eq, h.previous?_eq, show xs.getLast? = some d by simpa using hd]
    · obtain rfl : b = d := by simpa using hd
      have hinit : dom.ChildList p ((xs ++ c :: init) ++ b :: []) := by simpa using h
      have hlast : dom.next? (some b) = none := hinit.next?_eq
      have hcb : dom.previous? (some c) ≠ some b := fun hcb => by
        have := (h.previous?_eq_some_iff hmem (by simp)).mp hcb
        simp [hlast] at this
      simp [hcb, hlast]
  neighbours := by
    obtain ⟨hx, hy, -⟩ := List.isChain_append.mp h.neighbours
    refine List.isChain_append.mpr ⟨?_, ?_, fun a ha b hb => ?_⟩
    · exact hx.imp_of_mem_imp fun a b ha hb => h.neighbours_detach (by simp [ha]) (by simp [hb])
    · exact hy.tail.imp_of_mem_imp fun a b ha hb =>
        h.neighbours_detach (List.mem_append_right xs ha) (List.mem_append_right xs hb)
    · have ha' : a ∈ xs ++ ys := by simp [List.mem_of_mem_getLast? ha]
      have hb' : b ∈ xs ++ ys := by simp [List.mem_of_mem_head? hb]
      simp [next?_detach, previous?_detach, h.lt_size (mem_of_mem_without c ha'),
        h.lt_size (mem_of_mem_without c hb'), h.ne_of_mem_without ha', h.ne_of_mem_without hb',
        h.previous?_eq, h.next?_eq, Option.mem_def.mp ha, Option.mem_def.mp hb]
  nodup := (List.nodup_cons.mp (List.nodup_middle.mp h.nodup)).2
  mem_iff d := by
    rw [parent?_detach]
    split_ifs with hd
    · simpa using mt h.ne_of_mem_without (not_not_intro hd)
    · simp [← h.mem_iff, hd]

theorem detach_of_not_mem (h : dom.ChildList q l) (hwf : dom.WellFormed) (hq : q < dom.size)
    (hc : c ∉ l) : (dom.detach (some c)).ChildList q l := by
  have hcq : dom.parent? (some c) ≠ some q := fun hcq => hc ((h.mem_iff c).mpr hcq)
  refine h.congr ?_ ?_ (fun d => ?_) fun d hd => ?_
  · simp [firstChild?_detach, hq, hcq]
  · simp [lastChild?_detach, hq, hcq]
  · rw [parent?_detach]
    split_ifs with hd
    · simp [hd, hcq]
    · rfl
  · have hdc : d ≠ c := fun hdc => hc (hdc ▸ hd)
    have hside : ¬ (dom.previous? (some c) = some d ∨ dom.next? (some c) = some d) := fun hn =>
      hcq ((hwf.parent?_of_side hn).symm.trans ((h.mem_iff d).mp hd))
    push Not at hside
    simp [next?_detach, previous?_detach, h.lt_size hd, hdc, hside]

end ChildList

/-- Detaching changes no parent link but that of the detached node. -/
theorem parent?_of_detach (h : (dom.detach (some c)).parent? (some i) = some a) :
    dom.parent? (some i) = some a := by
  rw [parent?_detach] at h
  split_ifs at h
  exact h

theorem WellFormed.detach (h : dom.WellFormed) (c : NodeId) :
    (dom.detach (some c)).WellFormed := by
  refine .of_childLists (fun i q hq => ?_) (fun q hq => ?_) (fun i hi => ?_) (fun i hi => ?_)
  · simpa using h.parent_lt (parent?_of_detach hq)
  · rw [size_detach] at hq
    obtain ⟨l, hl⟩ := h.childList q hq
    by_cases hc : c ∈ l
    · obtain ⟨xs, ys, rfl⟩ := List.append_of_mem hc
      exact ⟨xs ++ ys, hl.detach hq⟩
    · exact ⟨l, hl.detach_of_not_mem h hq hc⟩
  · by_cases hlt : i < dom.size
    · rw [parent?_detach] at hi
      have hside : i ≠ c → ¬ (dom.previous? (some c) = some i ∨ dom.next? (some c) = some i) := by
        intro hic hn
        rw [if_neg hic, h.parent?_of_side hn] at hi
        simp [h.alone c hi] at hn
      rw [previous?_detach _ _ _ hlt, next?_detach _ _ _ hlt]
      split_ifs at hi ⊢ with hic <;> simp_all [h.alone]
    · have hn := (node?_eq_none_iff dom i).mpr (Nat.le_of_not_lt hlt)
      simp [previous?, next?, node?_detach, hn]
  · exact h.acyclic i (hi.mono fun _ _ => parent?_of_detach)

end Dom
end Markup
end CrossRef
