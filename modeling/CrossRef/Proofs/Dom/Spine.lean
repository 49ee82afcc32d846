import CrossRef.Proofs.Dom.Effect
import CrossRef.Proofs.Dom.Tree

/-!
The spine of an arena that grows at its end: the nodes that are still open, from the inside out. Of each
open node the content is known and the trees of the children that are finished. What comes next goes into
the innermost one, so the finished trees stay as they are.
-/
namespace CrossRef
namespace Markup

namespace Tree

/-- The tree of a text node. -/
def ofText (text : String) : Tree := .node (some (.text text)) []

/-- The tree of a text node with more text at its end. -/
def extend? (more : String) : Tree → Option Tree
  | .node (some (.text old)) below => some (.node (some (.text (old ++ more))) below)
  | _ => none

/-- Text after some trees extends the last one or becomes a tree of its own. -/
def addText (trees : List Tree) (text : String) : List Tree :=
  match trees.getLast?.bind (extend? text) with
  | some last => trees.dropLast ++ [last]
  | none => trees ++ [ofText text]

/-- No characters add no text. -/
def addChars (trees : List Tree) (chars : List Char) : List Tree :=
  if chars = [] then trees else addText trees (String.ofList chars)

variable {first second : String} {tree : Tree}

/-- A tree that is extended by one text can be extended by any. -/
theorem extend?_of_some {extended : Tree} (h : extend? first tree = some extended) (second : String) :
    extend? second extended = extend? (first ++ second) tree := by
  unfold extend? at h
  split at h
  · obtain rfl := Option.some_inj.mp h
    simp only [extend?, String.append_assoc]
  · simp at h

theorem extend?_eq_none {content : Option Content} (below : List Tree)
    (h : ∀ old, content ≠ some (.text old)) : extend? first (.node content below) = none := by
  unfold extend?
  split
  · next heq => exact absurd (Tree.node.inj heq).1 (h _)
  · rfl

theorem extend?_of_none (h : extend? first tree = none) (second : String) :
    extend? second tree = none := by
  unfold extend? at h ⊢
  split at h
  · simp at h
  · rfl

/-- Text in two pieces is text in one. -/
theorem addText_addText (trees : List Tree) (first second : String) :
    addText (addText trees first) second = addText trees (first ++ second) := by
  unfold addText
  cases hfirst : trees.getLast?.bind (extend? first) with
  | none =>
    have hboth : trees.getLast?.bind (extend? (first ++ second)) = none := by
      cases hlast : trees.getLast? with
      | none => rfl
      | some last =>
        rw [hlast, Option.bind_some] at hfirst
        exact extend?_of_none hfirst _
    simp [hboth, ofText, extend?]
  | some extended =>
    obtain ⟨last, hlast, hextended⟩ := Option.bind_eq_some_iff.mp hfirst
    have hsecond := extend?_of_some hextended second
    simp only [List.getLast?_concat, List.dropLast_concat, Option.bind_some, hlast, hsecond]
    cases hboth : extend? (first ++ second) last with
    | none => simp [extend?_of_none hboth first] at hextended
    | some both => rfl

theorem addChars_addChars (trees : List Tree) (first second : List Char) :
    addChars (addChars trees first) second = addChars trees (first ++ second) := by
  by_cases hfirst : first = []
  · rw [hfirst]
    rfl
  by_cases hsecond : second = []
  · rw [hsecond, List.append_nil]
    rfl
  simp [addChars, hfirst, hsecond, addText_addText, String.ofList_append]

end Tree

/-- An open node: its content, and the trees of its finished children. -/
structure Frame where
  content : Content
  closed : List Tree

namespace Dom

variable {dom dom' : Dom} {n m i j : NodeId} {inner : Link} {outer : List NodeId} {frame next : Frame}
  {frames : List Frame} {content : Content} {text : String}

/-! ### Trees that two arenas share -/

theorem WellFormed.tree_congr (h : dom.WellFormed) (h' : dom'.WellFormed) (hi : i < dom.size)
    (hi' : i < dom'.size)
    (hsame : ∀ j, dom.Encloses i j → dom'.content? (some j) = dom.content? (some j) ∧
      dom'.children (some j) = dom.children (some j)) : dom'.tree i = dom.tree i := by
  induction i using h.subtree_induction with
  | step i ih =>
    obtain ⟨hcontent, hkids⟩ := hsame i .refl
    rw [h.tree_eq hi, h'.tree_eq hi', hcontent, forest, forest, hkids]
    congr 1
    refine List.map_congr_left fun c hc => ?_
    have hcp := h.mem_children_iff.mp hc
    have hcp' := h'.mem_children_iff.mp (hkids ▸ hc)
    exact ih c hcp (lt_size_of_parent? hcp) (lt_size_of_parent? hcp') fun j hj => hsame j (hj.head hcp)

theorem WellFormed.not_encloses_parent (h : dom.WellFormed) (hn : dom.parent? (some n) = some m) :
    ¬ dom.Encloses n m :=
  fun hin => h.acyclic m (Relation.TransGen.head' hn hin)

/-- The trees of some nodes stay when nothing inside of them changes. -/
theorem map_tree_congr (h : dom.WellFormed) (h' : dom'.WellFormed) (hsize : dom.size ≤ dom'.size)
    {children : List NodeId} (hchildren : ∀ x ∈ children, dom.parent? (some x) = some n)
    (hsame : ∀ i < dom.size, (∃ x ∈ children, dom.Encloses x i) →
      dom'.content? (some i) = dom.content? (some i) ∧
        dom'.children (some i) = dom.children (some i)) :
    children.map dom'.tree = children.map dom.tree :=
  List.map_congr_left fun x hx => by
    have hxsize := lt_size_of_parent? (hchildren x hx)
    exact h.tree_congr h' hxsize (hxsize.trans_le hsize) fun i hi =>
      hsame i (hi.lt_size hxsize) ⟨x, hx, hi⟩

theorem Changes.same_of_ne (h : Changes dom dom' none [j] []) (hi : i < dom.size) (hne : i ≠ j) :
    dom'.content? (some i) = dom.content? (some i) ∧ dom'.children (some i) = dom.children (some i) :=
  ⟨h.content i hi (by simpa using hne), h.children i hi (by simp)⟩

/-- When only the content of the last child changes, only the tree of that child does. -/
theorem map_tree_of_last_edited (h : dom.WellFormed) (h' : dom'.WellFormed) {last : NodeId}
    (hlast : (dom.children (some n)).getLast? = some last)
    (hchanges : Changes dom dom' none [last] []) :
    (dom.children (some n)).map dom'.tree = (dom.children (some n)).dropLast.map dom.tree ++
      [.node (dom'.content? (some last)) (dom.forest last)] := by
  have hsize : dom.size ≤ dom'.size := hchanges.size.ge
  have hsplit := List.dropLast_append_getLast? last hlast
  have hparent := h.mem_children_iff.mp (List.mem_of_getLast? hlast)
  have hearlier : ∀ x ∈ (dom.children (some n)).dropLast, dom.parent? (some x) = some n := fun x hx =>
    h.mem_children_iff.mp (List.dropLast_subset _ hx)
  have hbefore : (dom.children (some n)).dropLast.map dom'.tree =
      (dom.children (some n)).dropLast.map dom.tree := by
    refine map_tree_congr h h' hsize hearlier fun i hi hin => hchanges.same_of_ne hi ?_
    obtain ⟨x, hx, hxi⟩ := hin
    rintro rfl
    have hnodup := h.nodup_children n
    rw [← hsplit, List.nodup_append] at hnodup
    exact h.not_encloses_sibling (hearlier x hx) hparent (hnodup.2.2 x hx i (by simp)) hxi
  have hbelow : dom'.forest last = dom.forest last := by
    rw [forest, hchanges.children last (lt_size_of_parent? hparent) (by simp), forest]
    refine map_tree_congr h h' hsize (fun x hx => h.mem_children_iff.mp hx)
      fun i hi hin => hchanges.same_of_ne hi ?_
    obtain ⟨x, hx, hxi⟩ := hin
    rintro rfl
    exact h.not_encloses_parent (h.mem_children_iff.mp hx) hxi
  nth_rewrite 1 [← hsplit]
  rw [List.map_append, hbefore, List.map_singleton,
    h'.tree_eq ((lt_size_of_parent? hparent).trans_le hsize), hbelow]

/-! ### Spines -/

/-- These nodes are open, the first inside the second and so on, and `inner` is open inside the first. -/
def Spine (dom : Dom) : Link → List NodeId → List Frame → Prop
  | _, [], [] => True
  | inner, node :: outer, frame :: frames =>
    dom.content? (some node) = some frame.content ∧
      (∃ closed, dom.children (some node) = closed ++ inner.toList ∧
        closed.map dom.tree = frame.closed) ∧
      Spine dom (some node) outer frames
  | _, _, _ => False

/-- Changes inside of `n` leave the spine around it. -/
theorem Spine.congr (hs : dom.Spine (some j) outer frames) (h : dom.WellFormed) (h' : dom'.WellFormed)
    (hsize : dom.size ≤ dom'.size) (hj : dom.Encloses j n)
    (hsame : ∀ i < dom.size, ¬ dom.Encloses n i → dom'.content? (some i) = dom.content? (some i) ∧
      dom'.children (some i) = dom.children (some i)) : dom'.Spine (some j) outer frames := by
  induction outer generalizing j frames with
  | nil =>
    cases frames with
    | nil => trivial
    | cons => exact hs.elim
  | cons m outer ih =>
    cases frames with
    | nil => exact hs.elim
    | cons frame frames =>
    obtain ⟨hcontent, ⟨closed, hkids, htrees⟩, hrest⟩ := hs
    have hm : m < dom.size := (content?_isSome_iff dom m).mp (by rw [hcontent]; rfl)
    have hjm : dom.parent? (some j) = some m := h.mem_children_iff.mp (by simp [hkids])
    have houtside : ¬ dom.Encloses n m := fun hnm => h.not_encloses_parent hjm (hj.trans hnm)
    have hmsame := hsame m hm houtside
    refine ⟨hmsame.1.trans hcontent, ⟨closed, hmsame.2.trans hkids, ?_⟩,
      ih hrest (Relation.ReflTransGen.head hjm hj)⟩
    rw [← htrees]
    refine List.map_congr_left fun x hx => ?_
    have hxm : dom.parent? (some x) = some m := h.mem_children_iff.mp (by simp [hkids, hx])
    have hnodup := h.nodup_children m
    rw [hkids, List.nodup_append] at hnodup
    have hne : x ≠ j := fun heq => hnodup.2.2 x hx j (by simp) heq
    have hxsize := lt_size_of_parent? hxm
    -- a node of a finished tree is not inside of `n`, because `n` is inside of a sibling of the tree
    refine h.tree_congr h' hxsize (hxsize.trans_le hsize) fun y hy =>
      hsame y (hy.lt_size hxsize) fun hny => ?_
    rcases encloses_or_encloses hy (hj.trans hny) with hxj | hjx
    · exact h.not_encloses_sibling hxm hjm hne hxj
    · exact h.not_encloses_sibling hjm hxm hne.symm hjx

theorem Spine.lt_size (hs : dom.Spine inner (n :: outer) (frame :: frames)) : n < dom.size :=
  (content?_isSome_iff dom n).mp (by rw [hs.1]; rfl)

/-- The innermost node is finished and becomes a tree of the next one. -/
theorem Spine.close (hs : dom.Spine none (n :: m :: outer) (frame :: next :: frames))
    (h : dom.WellFormed) : dom.Spine none (m :: outer)
      ({ next with closed := next.closed ++ [.node (some frame.content) frame.closed] } :: frames) := by
  have hn := hs.lt_size
  obtain ⟨hcontent, ⟨closed, hkids, htrees⟩, hm, ⟨before, hbefore, hnext⟩, hrest⟩ := hs
  refine ⟨hm, ⟨before ++ [n], by simpa using hbefore, ?_⟩, hrest⟩
  rw [List.map_append, hnext, List.map_singleton, h.tree_eq hn, hcontent, forest, hkids]
  simp [htrees]

/-- A new node in the innermost one is open in it. -/
theorem Spine.append (hs : dom.Spine none (n :: outer) (frame :: frames)) (h : dom.WellFormed)
    (h' : dom'.WellFormed) (happended : Appended (some content) dom dom' n dom.size) :
    dom'.Spine none (dom.size :: n :: outer) (⟨content, []⟩ :: frame :: frames) := by
  have hn := hs.lt_size
  obtain ⟨hcontent, ⟨closed, hkids, htrees⟩, hrest⟩ := hs
  obtain ⟨hnew, hchanges⟩ := happended
  obtain ⟨hnewContent, hnewKids⟩ := hchanges.new content rfl
  have hsize : dom.size ≤ dom'.size := by rw [hchanges.size]; exact Nat.le_add_right _ _
  have hsame : ∀ i < dom.size, i ≠ n → dom'.content? (some i) = dom.content? (some i) ∧
      dom'.children (some i) = dom.children (some i) := fun i hi hne =>
    ⟨hchanges.content i hi (by simp), hchanges.children i hi (by simpa using hne)⟩
  have hclosed : ∀ x ∈ closed, dom.parent? (some x) = some n := fun x hx =>
    h.mem_children_iff.mp (by simp [hkids, hx])
  refine ⟨hnewContent, ⟨[], hnewKids, rfl⟩, (hchanges.content n hn (by simp)).trans hcontent,
    ⟨closed, by simpa [hkids] using hnew, ?_⟩,
    hrest.congr h h' hsize .refl fun i hi hout => hsame i hi fun heq => hout (heq ▸ .refl)⟩
  rw [map_tree_congr h h' hsize hclosed, htrees]
  rintro i hi ⟨x, hx, hxi⟩
  refine hsame i hi fun heq => ?_
  subst heq
  exact h.not_encloses_parent (hclosed x hx) hxi

/-! ### Text at the end -/

theorem lastText?_eq_some_iff {last : NodeId} {old : String} :
    dom.lastText? n = some (last, old) ↔
      (dom.children (some n)).getLast? = some last ∧ dom.content? (some last) = some (.text old) := by
  rw [lastText?, Option.bind_eq_some_iff]
  constructor
  · rintro ⟨x, hx, hfound⟩
    split at hfound <;> simp_all
  · rintro ⟨hx, hcontent⟩
    exact ⟨last, hx, by rw [hcontent]⟩

/-- Text after the trees of all children of a node extends the last one when that is text. -/
theorem WellFormed.addText_forest_of_some (h : dom.WellFormed) {last : NodeId} {old : String}
    (hlast : dom.lastText? n = some (last, old)) (more : String) :
    Tree.addText (dom.forest n) more = (dom.children (some n)).dropLast.map dom.tree ++
      [.node (some (.text (old ++ more))) (dom.forest last)] := by
  obtain ⟨hchild, hcontent⟩ := lastText?_eq_some_iff.mp hlast
  have hparent := h.mem_children_iff.mp (List.mem_of_getLast? hchild)
  rw [Tree.addText, forest, List.getLast?_map, ← List.map_dropLast, hchild, Option.map_some,
    Option.bind_some, h.tree_eq (lt_size_of_parent? hparent), hcontent]
  rfl

theorem WellFormed.addText_forest_of_none (h : dom.WellFormed) (hlast : dom.lastText? n = none)
    (more : String) : Tree.addText (dom.forest n) more = dom.forest n ++ [.ofText more] := by
  have hextend : (dom.forest n).getLast?.bind (Tree.extend? more) = none := by
    rw [forest, List.getLast?_map, Option.bind_map, Option.bind_eq_none_iff]
    intro last hchild
    have hparent := h.mem_children_iff.mp (List.mem_of_getLast? hchild)
    rw [Function.comp_apply, h.tree_eq (lt_size_of_parent? hparent)]
    refine Tree.extend?_eq_none _ fun old hcontent => ?_
    simp [lastText?_eq_some_iff.mpr ⟨hchild, hcontent⟩] at hlast
  rw [Tree.addText, hextend]

/-- Text in the innermost node. -/
theorem Spine.appendText (hs : dom.Spine none (n :: outer) (frame :: frames)) (h : dom.WellFormed)
    (text : String) : (dom.appendText (some n) text).Spine none (n :: outer)
      ({ frame with closed := Tree.addText frame.closed text } :: frames) := by
  have hn := hs.lt_size
  have h' := h.appendText hn text
  have htext := textAppended_appendText h hn text
  have hforest : frame.closed = dom.forest n := by
    obtain ⟨-, ⟨closed, hkids, htrees⟩, -⟩ := hs
    rw [forest, hkids, ← htrees]
    simp
  rw [TextAppended] at htext
  cases hlast : dom.lastText? n with
  | none =>
    rw [hlast] at htext
    have hnew := (hs.append h h' htext).close h'
    rw [hforest, h.addText_forest_of_none hlast, ← hforest]
    exact hnew
  | some found =>
    obtain ⟨last, old⟩ := found
    rw [hlast] at htext
    obtain ⟨hedited, hchanges⟩ := htext
    obtain ⟨hcontent, -, hrest⟩ := hs
    rw [hforest, h.addText_forest_of_some hlast]
    obtain ⟨hlastChild, -⟩ := lastText?_eq_some_iff.mp hlast
    have hparent := h.mem_children_iff.mp (List.mem_of_getLast? hlastChild)
    have hne : n ≠ last := fun heq => h.not_encloses_parent hparent (heq ▸ .refl)
    obtain ⟨hsameContent, hsameKids⟩ := hchanges.same_of_ne hn hne
    refine ⟨hsameContent.trans hcontent, ⟨dom.children (some n), by simpa using hsameKids, ?_⟩,
      hrest.congr h h' hchanges.size.ge .refl fun i hi hout => hchanges.same_of_ne hi ?_⟩
    · rw [map_tree_of_last_edited h h' hlastChild hchanges, hedited]
    · rintro rfl
      exact hout (.single hparent)

end Dom
end Markup
end CrossRef
