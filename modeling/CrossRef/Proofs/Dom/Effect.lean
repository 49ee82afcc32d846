import CrossRef.Proofs.Dom.History

/-!
Effects: what each operation of the arena does to the lists of children. An operation rearranges the
lists that it is about and leaves the contents and the lists of all other nodes as they are.
-/
namespace CrossRef
namespace Markup
namespace Dom

variable {dom dom' dom'' : Dom} {p q c s n i : NodeId} {nodes : List NodeId} {text : String}

/-! ### What an operation is about -/

/-- At most one node is new. Of the others only those `edited` have another content, and only those
`relisted` have other children. -/
structure Changes (dom dom' : Dom) (made : Option Content) (edited relisted : List NodeId) :
    Prop where
  size : dom'.size = dom.size + made.toList.length
  new : ∀ content ∈ made, dom'.content? (some dom.size) = some content ∧
    dom'.children (some dom.size) = []
  content : ∀ i < dom.size, i ∉ edited → dom'.content? (some i) = dom.content? (some i)
  children : ∀ i < dom.size, i ∉ relisted → dom'.children (some i) = dom.children (some i)

/-- The node has no parent and stands beside no other. -/
def Detached (dom : Dom) (i : NodeId) : Prop :=
  dom.parent? (some i) = none ∧ dom.previous? (some i) = none ∧ dom.next? (some i) = none

/-- The children of `parent` are followed by `child`. -/
def Appended (made : Option Content) (dom dom' : Dom) (parent child : NodeId) : Prop :=
  dom'.children (some parent) = dom.children (some parent) ++ [child] ∧
    Changes dom dom' made [] [parent]

/-- In the list of its parent, `sibling` comes directly after `new`. -/
def InsertedBefore (made : Option Content) (dom dom' : Dom) (sibling new : NodeId) : Prop :=
  ∃ parent before after, dom.parent? (some sibling) = some parent ∧
    dom.children (some parent) = before ++ sibling :: after ∧
    dom'.children (some parent) = before ++ new :: sibling :: after ∧
    Changes dom dom' made [] [parent]

/-- The node is out of the list of its parent, and the others there keep their order. -/
def Removed (dom dom' : Dom) (node : NodeId) : Prop :=
  Detached dom' node ∧
    match dom.parent? (some node) with
    | none => Changes dom dom' none [] []
    | some parent => ∃ before after,
      dom.children (some parent) = before ++ node :: after ∧
      dom'.children (some parent) = before ++ after ∧ Changes dom dom' none [] [parent]

/-- The last child if that is a text node. -/
def lastText? (dom : Dom) (parent : NodeId) : Option (NodeId × String) :=
  (dom.children (some parent)).getLast?.bind fun last =>
    match dom.content? (some last) with
    | some (.text old) => some (last, old)
    | _ => none

/-- The last child is a text that was extended, or a new text. -/
def TextAppended (dom dom' : Dom) (parent : NodeId) (text : String) : Prop :=
  match dom.lastText? parent with
  | some (last, old) =>
    dom'.content? (some last) = some (.text (old ++ text)) ∧ Changes dom dom' none [last] []
  | none => Appended (some (.text text)) dom dom' parent dom.size

def Placed (dom dom' : Dom) (parent : NodeId) : Material → Prop
  | .node child => ∀ c ∈ child, Appended none dom dom' parent c
  | .text text => TextAppended dom dom' parent text

namespace Operation

/-- What an operation does. -/
def Effect (dom dom' : Dom) : Operation → Prop
  | create content => Changes dom dom' (some content) [] []
  | append parent child => Appended none dom dom' parent child
  | insertBefore sibling new => InsertedBefore none dom dom' sibling new
  | appendText parent text => TextAppended dom dom' parent text
  | detach node => Removed dom dom' node
  | setAttribute node _ _ | addMissingAttributes node _ => Changes dom dom' none [node] []
  | replaceChildrenWithText node text =>
    dom'.children (some node) = [dom.size] ∧
      (∀ c ∈ dom.children (some node), Detached dom' c) ∧
      Changes dom dom' (some (.text text)) [] [node]
  | reparentChildren source target =>
    if source = target then Changes dom dom' none [] []
    else
      dom'.children (some target) = dom.children (some target) ++ dom.children (some source) ∧
        dom'.children (some source) = [] ∧ Changes dom dom' none [] [source, target]
  | place parent material => Placed dom dom' parent material
  | placeOutside element fallback material =>
    Placed dom dom' (dom.outerNode element fallback) material
  | placeBefore sibling (.node new) => ∀ n ∈ new, InsertedBefore none dom dom' sibling n
  | placeBefore sibling (.text text) =>
    InsertedBefore (some (.text text)) dom dom' sibling dom.size
  | placeDoctype name =>
    document < dom.size → Appended (some (.doctype name)) dom dom' document dom.size

end Operation

/-! ### Each operation -/

theorem WellFormed.detached (h : dom.WellFormed) (hi : dom.parent? (some i) = none) :
    dom.Detached i := ⟨hi, h.alone i hi⟩

theorem changes_create (h : dom.WellFormed) (content : Content) :
    Changes dom (dom.create content).1 (some content) [] [] where
  size := by simp
  new new hnew := by
    obtain rfl : content = new := Option.some_inj.mp hnew
    rw [content?_create, if_pos rfl, h.children_create, children_of_size_le le_rfl]
    exact ⟨rfl, rfl⟩
  content i hi _ := by rw [content?_create, if_neg hi.ne]
  children i _ _ := h.children_create content i

/-- A change of one content leaves all lists. -/
theorem SameLinks.changes (h : SameLinks dom dom') (hwf : dom.WellFormed)
    (hcontent : ∀ i < dom.size, i ≠ n → dom'.content? (some i) = dom.content? (some i)) :
    Changes dom dom' none [n] [] where
  size := h.size
  new _ hnew := by simp at hnew
  content i hi hmem := hcontent i hi (by simpa using hmem)
  children i _ _ := h.children_eq hwf i

theorem content?_modify_of_ne (f : Node → Node) (hi : i ≠ n) :
    (dom.modify (some n) f).content? (some i) = dom.content? (some i) := by
  rw [content?, node?_modify, if_neg (by simpa using hi.symm), content?]

theorem appended_append (h : dom.WellFormed) (hp : p < dom.size) (hc : dom.Insertable c p) :
    Appended none dom (dom.append (some p) (some c)) p c := by
  have hkids := h.children_append hp hc.lt_size hc.detached
  refine ⟨by rw [hkids, if_pos rfl], by simp, by simp, fun i _ _ => by simp, fun i _ hmem => ?_⟩
  rw [hkids, if_neg (by simpa using hmem)]

theorem appended_create (h : dom.WellFormed) (content : Content) (hp : p < dom.size) :
    Appended (some content) dom ((dom.create content).1.append (some p) (some dom.size)) p
      dom.size := by
  have hkids := h.children_append_create content hp
  refine ⟨by rw [hkids, if_pos rfl], by simp, fun new hnew => ?_, fun i hi _ => ?_,
    fun i _ hmem => ?_⟩
  · obtain rfl : content = new := Option.some_inj.mp hnew
    rw [content?_append, content?_create, if_pos rfl, hkids, if_neg hp.ne',
      children_of_size_le le_rfl]
    exact ⟨rfl, rfl⟩
  · rw [content?_append, content?_create, if_neg hi.ne]
  · rw [hkids, if_neg (by simpa using hmem)]

theorem insertedBefore_insertBefore (h : dom.WellFormed) (hs : dom.parent? (some s) = some p)
    (hn : dom.Insertable n s) :
    InsertedBefore none dom (dom.insertBefore (some s) (some n)) s n := by
  have hslt := lt_size_of_parent? hs
  have hp := h.parent_lt hs
  have hl := h.childList_children hp
  obtain ⟨before, after, hsplit⟩ := List.append_of_mem ((hl.mem_iff s).mpr hs)
  rw [hsplit] at hl
  refine ⟨p, before, after, hs, hsplit, (hl.insertBefore hp hn.lt_size hn.detached).children_eq,
    by simp, by simp, fun i _ _ => content?_insertBefore n hslt _, fun q hq hmem => ?_⟩
  have hsq : s ∉ dom.children (some q) := fun hsq =>
    hmem (by simpa using Option.some_inj.mp ((h.mem_children_iff.mp hsq).symm.trans hs))
  exact ((h.childList_children hq).insertBefore_of_not_mem h hq hsq hslt hn.lt_size
    hn.detached).children_eq

theorem removed_detach (h : dom.WellFormed) (c : NodeId) :
    Removed dom (dom.detach (some c)) c := by
  refine ⟨(h.detach c).detached (by simp [parent?_detach]), ?_⟩
  have hother : ∀ q < dom.size, dom.parent? (some c) ≠ some q →
      (dom.detach (some c)).children (some q) = dom.children (some q) := fun q hq hcq =>
    ((h.childList_children hq).detach_of_not_mem h hq (mt h.mem_children_iff.mp hcq)).children_eq
  split
  · next hp => exact ⟨by simp, by simp, by simp, fun q hq _ => hother q hq (by simp [hp])⟩
  · next p hp =>
    have hplt := h.parent_lt hp
    have hl := h.childList_children hplt
    obtain ⟨before, after, hsplit⟩ := List.append_of_mem ((hl.mem_iff c).mpr hp)
    rw [hsplit] at hl
    refine ⟨before, after, hsplit, (hl.detach hplt).children_eq, by simp, by simp, by simp,
      fun q hq hmem => hother q hq ?_⟩
    rw [hp, ne_eq, Option.some_inj]
    exact fun hpq => hmem (by simp [hpq])

theorem lastText?_eq (h : dom.WellFormed) (hp : p < dom.size) :
    dom.lastText? p = match dom.content? (dom.lastChild? (some p)) with
      | some (.text old) => (dom.lastChild? (some p)).map (·, old)
      | _ => none := by
  rw [(h.childList_children hp).last, lastText?]
  cases (dom.children (some p)).getLast? <;> rfl

theorem textAppended_appendText (h : dom.WellFormed) (hp : p < dom.size) (text : String) :
    TextAppended dom (dom.appendText (some p) text) p text := by
  rw [TextAppended, lastText?_eq h hp]
  cases hlast : dom.lastChild? (some p) with
  | none =>
    simp only [appendText, hlast, content?_none]
    exact appended_create h (.text text) hp
  | some last =>
    cases hcontent : dom.content? (some last) with
    | none =>
      simp only [appendText, hlast, hcontent]
      exact appended_create h (.text text) hp
    | some content =>
      cases content with
      | text old =>
        simp only [appendText, hlast, hcontent, Option.map_some]
        obtain ⟨node, hnode, -⟩ := Option.map_eq_some_iff.mp hcontent
        refine ⟨by simp [content?, node?_modify, hnode], ?_⟩
        refine (sameLinks_modify (some last) ?_).changes h fun i _ hi => content?_modify_of_ne _ hi
        exact fun n => rfl
      | _ =>
        simp only [appendText, hlast, hcontent]
        exact appended_create h (.text text) hp

/-- The nodes moved leave their lists and come to stand behind the other children of the target. -/
theorem children_moveAll (h : dom.WellFormed) (hp : p < dom.size) (hnodup : nodes.Nodup)
    (hnodes : ∀ c ∈ nodes, c < dom.size ∧ ¬ dom.Encloses c p) (q : NodeId) :
    (dom.moveAll p nodes).children (some q) =
      (dom.children (some q)).filter (· ∉ nodes) ++ if q = p then nodes else [] := by
  induction nodes generalizing dom with
  | nil => simp [moveAll]
  | cons c nodes ih =>
    obtain ⟨hc, hcp⟩ := hnodes c List.mem_cons_self
    obtain ⟨hmem, hnodup⟩ := List.nodup_cons.mp hnodup
    have hdet : (dom.detach (some c)).parent? (some c) = none := by simp [parent?_detach]
    have hmoved := (h.detach c).children_append (p := p) (c := c) (by simpa using hp)
      (by simpa using hc) hdet q
    simp only [h.children_detach] at hmoved
    have hrest : ∀ d ∈ nodes, d < ((dom.detach (some c)).append (some p) (some c)).size ∧
        ¬ ((dom.detach (some c)).append (some p) (some c)).Encloses d p := fun d hd => by
      obtain ⟨hdlt, hdp⟩ := hnodes d (List.mem_cons_of_mem c hd)
      exact ⟨by simpa using hdlt, fun henc => hdp (encloses_of_move hc hcp henc)⟩
    have hfilter : ∀ l : List NodeId, (l.filter (· ≠ c)).filter (· ∉ nodes) =
        l.filter (· ∉ c :: nodes) := fun l => by
      rw [List.filter_filter]
      congr 1
      funext i
      by_cases hi : i = c <;> simp [hi]
    refine (ih (h.move hp hc hcp) (by simpa using hp) hnodup hrest).trans ?_
    rw [hmoved]
    split_ifs with hq
    · rw [hq, List.filter_append, hfilter]
      simp [hmem]
    · rw [hfilter]

/-- Two nodes share no child. -/
theorem WellFormed.filter_children_of_ne (h : dom.WellFormed) (hqs : q ≠ s) :
    (dom.children (some q)).filter (· ∉ dom.children (some s)) = dom.children (some q) := by
  refine List.filter_eq_self.mpr fun c hc => decide_eq_true fun hcs => hqs ?_
  exact Option.some_inj.mp ((h.mem_children_iff.mp hc).symm.trans (h.mem_children_iff.mp hcs))

theorem children_reparentChildren (h : dom.WellFormed) (hp : p < dom.size)
    (hsp : ¬ dom.Above s p) (q : NodeId) :
    (dom.reparentChildren (some s) (some p)).children (some q) =
      if q = p then (if s = p then dom.children (some p)
        else dom.children (some p) ++ dom.children (some s))
      else if q = s then [] else dom.children (some q) := by
  have hkids := children_moveAll h hp (h.nodup_children s) (fun c hc => ⟨lt_size_of_parent?
    (h.mem_children_iff.mp hc), fun henc => hsp (.head' (h.mem_children_iff.mp hc) henc)⟩) q
  rw [reparentChildren_eq, hkids]
  split_ifs with hqp hps hqs
  · rw [hqp, hps]
    simp
  · rw [hqp, h.filter_children_of_ne (Ne.symm hps)]
  · rw [hqs]
    simp
  · rw [h.filter_children_of_ne hqs, List.append_nil]

theorem effect_replaceChildrenWithText (h : dom.WellFormed) (hp : p < dom.size) (text : String) :
    (Operation.replaceChildrenWithText p text).Effect dom
      (dom.replaceChildrenWithText (some p) text) := by
  have hwf := h.replaceChildrenWithText hp text
  have hkids := h.children_replaceChildrenWithText hp text
  refine ⟨by rw [hkids, if_pos rfl], fun c hc => hwf.detached ?_, by simp, fun new hnew => ?_,
    fun i hi _ => ?_, fun i _ hmem => ?_⟩
  · have hcp := h.mem_children_iff.mp hc
    rw [parent?_replaceChildrenWithText h, if_neg (lt_size_of_parent? hcp).ne, if_pos hcp]
  · obtain rfl : Content.text text = new := Option.some_inj.mp hnew
    rw [content?_replaceChildrenWithText, if_pos rfl, hkids, if_neg hp.ne',
      children_of_size_le le_rfl]
    exact ⟨rfl, rfl⟩
  · rw [content?_replaceChildrenWithText, if_neg hi.ne]
  · rw [hkids, if_neg (by simpa using hmem)]

theorem effect_reparentChildren (h : dom.WellFormed) (hp : p < dom.size)
    (hsp : ¬ dom.Above s p) :
    (Operation.reparentChildren s p).Effect dom (dom.reparentChildren (some s) (some p)) := by
  have hkids := children_reparentChildren h hp hsp
  have hsize : (dom.reparentChildren (some s) (some p)).size = dom.size := by
    simp [reparentChildren_eq]
  have hcontent : ∀ i < dom.size, i ∉ ([] : List NodeId) →
      (dom.reparentChildren (some s) (some p)).content? (some i) = dom.content? (some i) := by
    simp [reparentChildren_eq]
  rw [Operation.Effect]
  split_ifs with hsame
  · subst hsame
    refine ⟨hsize, by simp, hcontent, fun q _ _ => ?_⟩
    rw [hkids, if_pos rfl]
    split_ifs with hq
    · rw [hq]
    · rfl
  · refine ⟨by rw [hkids, if_pos rfl, if_neg hsame], by rw [hkids, if_neg hsame, if_pos rfl], hsize,
      by simp, hcontent, fun q _ hmem => ?_⟩
    simp only [List.mem_cons, List.not_mem_nil, or_false, not_or] at hmem
    rw [hkids, if_neg hmem.2, if_neg hmem.1]

theorem placed_place (h : dom.WellFormed) (hp : p < dom.size) {material : Material}
    (hm : dom.Accepts p material) : Placed dom (dom.place (some p) material) p material := by
  match material, hm with
  | .node (some c), hc =>
    intro d hd
    obtain rfl : c = d := Option.some_inj.mp hd
    exact appended_append h hp hc
  | .text text, _ => exact textAppended_appendText h hp text

theorem insertedBefore_create (h : dom.WellFormed) (hs : dom.parent? (some s) = some p)
    (content : Content) :
    InsertedBefore (some content) dom
      ((dom.create content).1.insertBefore (some s) (some dom.size)) s dom.size := by
  have hslt := lt_size_of_parent? hs
  have hplt := h.parent_lt hs
  obtain ⟨parent, before, after, hparent, hold, hnew, hchanges⟩ :=
    insertedBefore_insertBefore (h.create content) (by simpa using hs)
      (h.insertable_size content hslt)
  obtain rfl : p = parent := Option.some_inj.mp (hs.symm.trans (by simpa using hparent))
  have hmade := changes_create h content
  refine ⟨p, before, after, hs, by rwa [h.children_create] at hold, hnew, by simp,
    fun new hmem => ?_, fun i hi hmem => ?_, fun q hq hmem => ?_⟩
  · obtain ⟨hcontent, hkids⟩ := hmade.new new hmem
    rw [hchanges.content _ (by simp) (by simp), hchanges.children _ (by simp)
      (by simpa using hplt.ne')]
    exact ⟨hcontent, hkids⟩
  · rw [hchanges.content i (by simpa using Nat.lt_succ_of_lt hi) hmem, hmade.content i hi hmem]
  · rw [hchanges.children q (by simpa using Nat.lt_succ_of_lt hq) hmem,
      hmade.children q hq (by simp)]

/-! ### All operations -/

/-- On a well-formed arena every allowed operation has its effect on the lists of children, and no
other list or content changes. -/
theorem effect_run (h : dom.WellFormed) {op : Operation} (hop : op.Allowed dom) :
    op.Effect dom (op.run dom) := by
  cases op with
  | create content => exact changes_create h content
  | append parent child => exact appended_append h hop.1 hop.2
  | insertBefore sibling new =>
    obtain ⟨-, hs, hn⟩ := hop
    obtain ⟨p, hp⟩ := Option.ne_none_iff_exists'.mp hs
    exact insertedBefore_insertBefore h hp hn
  | appendText parent text => exact textAppended_appendText h hop text
  | detach node => exact removed_detach h node
  | setAttribute node label value =>
    exact (sameLinks_setAttribute dom (some node) label value).changes h fun i _ hi =>
      content?_modify_of_ne _ hi
  | replaceChildrenWithText node text => exact effect_replaceChildrenWithText h hop text
  | reparentChildren source target => exact effect_reparentChildren h hop.2.1 hop.2.2
  | place parent material => exact placed_place h hop.1 hop.2
  | placeOutside element fallback material =>
    rw [Operation.run, placeOutside_eq]
    exact placed_place h (h.outerNode_lt hop.2.1) hop.2.2
  | placeBefore sibling material =>
    obtain ⟨-, hs, hm⟩ := hop
    obtain ⟨p, hp⟩ := Option.ne_none_iff_exists'.mp hs
    cases material with
    | node n =>
      rintro m rfl
      exact insertedBefore_insertBefore h hp hm
    | text text => exact insertedBefore_create h hp (.text text)
  | placeDoctype name => exact fun h0 => appended_create h (.doctype name) h0
  | addMissingAttributes node new =>
    exact (sameLinks_addMissingAttributes dom (some node) new).changes h fun i _ hi =>
      content?_modify_of_ne _ hi

/-- A paragraph with a text and a picture gives both to the document that it stands in. -/
theorem effect_of_unwrapping :
    let dom := ((((empty.create (.element (.html "p") [])).1.append (some 0) (some 1)).appendText
      (some 1) "a").create (.element (.html "img") [])).1.append (some 1) (some 3)
    let op := Operation.reparentChildren 1 0
    op.Allowed dom ∧ dom.children (some 0) = [1] ∧ dom.children (some 1) = [2, 3] ∧
      (op.run dom).children (some 0) = [1, 2, 3] ∧ op.Effect dom (op.run dom) := by
  intro dom op
  have hparagraph := wellFormed_empty.append_create (.element (.html "p") []) (p := 0) (by decide)
  have hwf : dom.WellFormed :=
    (hparagraph.appendText (p := 1) (by decide) "a").append_create _ (p := 1) (by decide)
  have hop : op.Allowed dom := by
    refine ⟨by decide, by decide, fun habove => ?_⟩
    obtain ⟨p, hp, -⟩ := above_iff_exists_parent.mp habove
    exact absurd hp (by simp [show dom.parent? (some 0) = none by decide])
  exact ⟨hop, by decide, by decide, by decide, effect_run hwf hop⟩

end Dom
end Markup
end CrossRef
