import CrossRef.Proofs.Ready.Basic

/-!
Moving nodes about. A node that is put elsewhere takes along what it encloses, and the split of a formatting
element moves each node to a place outside of it.
-/
namespace CrossRef
namespace Markup
namespace Dom

variable {dom dom' : Dom} {a b c i n p : NodeId}

/-! ### One node -/

theorem parent?_move (hc : c < dom.size) (p i : NodeId) :
    ((dom.detach (some c)).append (some p) (some c)).parent? (some i) =
      if i = c then some p else dom.parent? (some i) := by
  rw [parent?_append _ _ _ (by simpa using hc), parent?_detach]
  split_ifs <;> rfl

section Move

variable (hparent : ∀ j, dom'.parent? (some j) = if j = c then some p else dom.parent? (some j))
include hparent

theorem encloses_of_move_cases (h : dom'.Encloses a b) : dom.Encloses a b ∨ dom.Encloses a p ∧ dom.Encloses c b := by
  rcases Relation.reflTransGen_iff_eq_or_transGen.mp h with rfl | habove
  · exact .inl .refl
  · exact (above_attach hparent habove).imp_left (·.to_reflTransGen)

theorem encloses_move_self (h : dom.Encloses c i) : dom'.Encloses c i := by
  induction h with
  | refl => exact .refl
  | @tail q j _ hj ih =>
    by_cases hjc : j = c
    · rw [hjc]
      exact .refl
    · exact ih.tail (by rw [hparent, if_neg hjc, hj])

/-- What was below a node stays there or went along. -/
theorem above_move_cases (h : dom.Above a i) : dom'.Above a i ∨ dom'.Encloses c i := by
  by_cases hci : dom.Encloses c i
  · exact .inr (encloses_move_self hparent hci)
  · obtain ⟨q, hq, haq⟩ := above_iff_exists_parent.mp h
    have hstay := Html.Setting.Extends.encloses_of_moved
      (fun j hj => by rw [hparent, if_neg hj]) haq fun hcq => hci (hcq.tail hq)
    refine .inl (.tail' hstay ?_)
    rw [hparent, if_neg, hq]
    rintro rfl
    exact hci .refl

end Move

/-! ### A new node around another -/

/-- The arena with a new node, and another put into that. -/
def around (dom : Dom) (content : Content) (last : NodeId) : Dom :=
  ((dom.create content).1.detach (some last)).append (some dom.size) (some last)

section Around

variable {content : Content} {last : NodeId}

theorem parent?_around (content : Content) (hlast : last < dom.size) (i : NodeId) : (dom.around content last).parent? (some i) =
    if i = last then some dom.size else dom.parent? (some i) := by
  rw [around, parent?_move (by simpa using Nat.lt_succ_of_lt hlast), parent?_create]

theorem content?_around (i : NodeId) : (dom.around content last).content? (some i) =
    if i = dom.size then some content else dom.content? (some i) := by
  rw [around, content?_append, content?_detach, content?_create]

/-- Nothing encloses the place of a new node but it itself. -/
theorem eq_of_encloses_size (h : dom.Encloses a dom.size) : a = dom.size := by
  rcases h.cases_tail with rfl | ⟨q, -, hq⟩
  · rfl
  · exact absurd (lt_size_of_parent? hq) (lt_irrefl _)

theorem eq_of_size_encloses (hwf : dom.WellFormed) (h : dom.Encloses dom.size b) : b = dom.size := by
  rcases h.cases_head with rfl | ⟨q, hq, -⟩
  · rfl
  · exact absurd (hwf.parent_lt hq) (lt_irrefl _)

/-- Putting a new node around another makes nothing else enclose anything more. -/
theorem encloses_of_around (hlast : last < dom.size)
    (h : (dom.around content last).Encloses a b) :
    dom.Encloses a b ∨ a = dom.size ∧ dom.Encloses last b := by
  rcases encloses_of_move_cases (parent?_around content hlast) h with h | ⟨ha, hb⟩
  · exact .inl h
  · exact .inr ⟨eq_of_encloses_size ha, hb⟩

end Around

/-! ### The children of a node -/

section Nest

-- the children of `p` are now in `n`, and that is in `p`
variable (hparent : ∀ i, dom'.parent? (some i) =
  if i = n then some p else if dom.parent? (some i) = some p then some n else dom.parent? (some i))
include hparent

theorem encloses_of_nest (hnew : ∀ i, dom.parent? (some i) ≠ some n) (ha : a ≠ n) (h : dom'.Encloses a i) :
    (i ≠ n → dom.Encloses a i) ∧ (i = n → dom.Encloses a p) := by
  induction h with
  | refl => exact ⟨fun _ => .refl, fun heq => absurd heq ha⟩
  | @tail q j _ hj ih =>
    rw [hparent] at hj
    split_ifs at hj with hjn hjp
    · obtain rfl := Option.some_inj.mp hj
      refine ⟨fun hne => absurd hjn hne, fun _ => ?_⟩
      by_cases hpn : p = n
      · exact ih.2 hpn
      · exact ih.1 hpn
    · obtain rfl := Option.some_inj.mp hj
      exact ⟨fun _ => (ih.2 rfl).tail hjp, fun heq => absurd heq hjn⟩
    · have hqn : q ≠ n := fun heq => hnew j (heq ▸ hj)
      exact ⟨fun _ => (ih.1 hqn).tail hj, fun heq => absurd heq hjn⟩

theorem above_nest (hn : dom.parent? (some n) = none) (h : dom.Above a i) : dom'.Above a i := by
  have hp : dom'.parent? (some n) = some p := by rw [hparent, if_pos rfl]
  have hstep : ∀ {q j}, dom.parent? (some j) = some q → dom'.Above q j := by
    intro q j hj
    have hjn : j ≠ n := by
      rintro rfl
      simp [hn] at hj
    by_cases hqp : q = p
    · subst hqp
      exact .tail (.single hp) (by rw [hparent, if_neg hjn, if_pos hj])
    · exact .single (by rw [hparent, if_neg hjn, if_neg (by simpa [hj] using hqp), hj])
  induction h with
  | single hj => exact hstep hj
  | tail _ hj ih => exact ih.trans (hstep hj)

/-- What is put around the children of an element does not enclose what is not inside of it. -/
theorem not_encloses_nest (hwf : dom'.WellFormed) (hnew : ∀ i, dom.parent? (some i) ≠ some n) (hpn : p ≠ n)
    (hin : i ≠ n) (hpi : i = p ∨ ¬ dom.Encloses p i) : ¬ dom'.Encloses n i := by
  intro h
  have hp : dom'.parent? (some n) = some p := by rw [hparent, if_pos rfl]
  rcases hpi with rfl | hpi
  · exact hwf.acyclic i (.head' hp h)
  · exact hpi ((encloses_of_nest hparent hnew hpn (.head hp h)).1 hin)

end Nest

/-- The arena with a new node in `p`, around what was in `p`. -/
def nested (dom : Dom) (content : Content) (p : NodeId) : Dom :=
  ((dom.create content).1.reparentChildren (some p) (some dom.size)).append (some p) (some dom.size)

section Nested

variable {content : Content}

theorem content?_nested (i : NodeId) : (dom.nested content p).content? (some i) =
    if i = dom.size then some content else dom.content? (some i) := by
  rw [nested, content?_append, reparentChildren_eq, content?_moveAll, content?_create]

theorem parent?_nested (content : Content) (hwf : dom.WellFormed) (i : NodeId) : (dom.nested content p).parent? (some i) =
    if i = dom.size then some p else if dom.parent? (some i) = some p then some dom.size
      else dom.parent? (some i) := by
  have hkids : ∀ c ∈ (dom.create content).1.children (some p), c < (dom.create content).1.size := fun c hc =>
    lt_size_of_parent? ((hwf.create content).mem_children_iff.mp hc)
  rw [nested, parent?_append _ _ _ (by simp [reparentChildren_eq]), reparentChildren_eq, parent?_moveAll hkids]
  simp [(hwf.create content).mem_children_iff]

end Nested
end Dom
end Markup
end CrossRef
