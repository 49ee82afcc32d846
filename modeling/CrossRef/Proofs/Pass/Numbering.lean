import CrossRef.Proofs.Dom.Lineage
import CrossRef.Proofs.Pass.Boxing
import CrossRef.Proofs.Pass.Unchanged

/-!
Numbers on trees. What the numbering of equations does to a chapter is a recursion over its tree with a
running rank, which boxes each numbered equation where it stands.
-/
namespace CrossRef
namespace Pass

open Markup Markup.Dom Index

variable {dom dom' : Dom} {f : Fragment} {place : NodeId → NodeId} {i : NodeId} {rank : Nat}
  {number : ChapterNumber} {numbering : Numbering} {equations : List ScannedEquation}
  {above : Position}

/-! ### Equations as they are seen in a tree -/

def isDisplayMathIn (content : Option Content) : Bool :=
  isElementIn content "math" &&
    (attributeIn? content "display").any fun value =>
      Text.equalIgnoringAsciiCase (Text.trim value) "block"

/-- The identifier that a node with this content has, without blanks around it. -/
def identifierIn? (content : Option Content) : Option String :=
  match (attributeIn? content "id").map Text.trim with
  | some "" => none
  | other => other

/-- The nearest identifier of a node and the nodes above it, at most `depth` of them. -/
def ownerIn? (depth : Nat) (position : Position) : Option String :=
  (position.take (depth + 1)).findSome? identifierIn?

/-- Does the policy number the node at this position? -/
def isNumberedAt (numbering : Numbering) : Position → Bool
  | [] => false
  | content :: above =>
    isDisplayMathIn content &&
      match numbering with
      | .allDisplay => true
      | .identifiedOnly => (ownerIn? ownerSearchDepth (content :: above)).any isEquationIdentifier

/-- Is the parent of the node at this position a box for equations? -/
def isWrappedAt : Position → Bool
  | _ :: parent :: _ =>
    isElementIn parent "div" &&
      (attributeIn? parent "class").any fun value => (Text.words value).contains contentClass
  | _ => false

mutual

/-- The tree with its numbered equations boxed. The first of them has the given rank, those inside an
equation come after it, and only those that are in no box yet get one. -/
def numberTree (numbering : Numbering) (number : ChapterNumber) (above : Position) (rank : Nat) :
    Tree → Tree
  | .node content children =>
    if isNumberedAt numbering (content :: above) then
      let inside := numberForest numbering number (content :: above) (rank + 1) children
      if isWrappedAt (content :: above) then .node content inside
      else boxTree (shownEquationNumber number rank) (.node content inside)
    else .node content (numberForest numbering number (content :: above) rank children)

/-- Trees that stand side by side, each with the ranks that follow those of the trees before. -/
def numberForest (numbering : Numbering) (number : ChapterNumber) (above : Position) (rank : Nat) :
    List Tree → List Tree
  | [] => []
  | tree :: rest =>
    numberTree numbering number above rank tree ::
      numberForest numbering number above (rank + tree.count (isNumberedAt numbering) above) rest

end

/-! ### Positions in the arena -/

theorem nearestIdentifier?_eq (dom : Dom) (depth : Nat) (i : NodeId) :
    nearestIdentifier? dom depth i =
      (dom.content? (some i) :: dom.contentsAbove depth i).findSome? identifierIn? := by
  have hown : ∀ i, ownIdentifier? dom i = identifierIn? (dom.content? (some i)) := fun i => by
    rw [ownIdentifier?, attribute?_eq]
    rfl
  induction depth generalizing i with
  | zero =>
    unfold nearestIdentifier?
    rw [hown, List.findSome?_cons]
    cases identifierIn? (dom.content? (some i)) <;> rfl
  | succ depth ih =>
    unfold nearestIdentifier?
    rw [hown, List.findSome?_cons]
    cases identifierIn? (dom.content? (some i)) with
    | some s => rfl
    | none =>
      cases hp : dom.parent? (some i) with
      | none => simp [contentsAbove_of_top hp]
      | some p => simp [contentsAbove_of_parent hp, ih]

theorem reads_isNumberedAt (dom : Dom) (numbering : Numbering) :
    dom.Reads ownerSearchDepth (isNumberedAt numbering) (isNumbered dom numbering) := by
  intro i above habove
  have howner : owningIdentifier? dom i =
      ownerIn? ownerSearchDepth (dom.content? (some i) :: above) := by
    rw [owningIdentifier?, nearestIdentifier?_eq, ownerIn?, List.take_succ_cons, habove]
  unfold isNumbered isDisplayMath
  rw [howner, isElement_eq, attribute?_eq]
  rfl

theorem reads_isWrappedAt (dom : Dom) : dom.Reads ownerSearchDepth isWrappedAt (isWrapped dom) := by
  intro i above habove
  cases hp : dom.parent? (some i) with
  | none =>
    have hnil : above = [] := by
      simpa [StandsBelow, contentsAbove_of_top hp, ownerSearchDepth] using habove
    simp [hnil, isWrappedAt, isWrapped, hp, isElement, name?, content?]
  | some p =>
    cases above with
    | nil => simp [StandsBelow, ownerSearchDepth, contentsAbove_of_parent hp] at habove
    | cons parent rest =>
      have hparent : parent = dom.content? (some p) := by
        have hhead := congrArg List.head? habove
        simpa [ownerSearchDepth, contentsAbove_of_parent hp] using hhead
      simp only [isWrappedAt, isWrapped, hp, hparent, isElement_eq, attribute?_eq]

/-! ### The tree of a numbered chapter -/

theorem scanFrom_append (dom : Dom) (rank : Nat) (nodes more : List NodeId) :
    scanFrom dom rank (nodes ++ more) =
      scanFrom dom rank nodes ++ scanFrom dom (rank + nodes.length) more := by
  induction nodes generalizing rank with
  | nil => rfl
  | cons x rest ih => simp [scanFrom, ih, Nat.add_right_comm, Nat.add_assoc]

/-- The numbered equations among the nodes that are in no box yet are boxed with their ranks. -/
def Labelled (numbering : Numbering) (number : ChapterNumber) (dom dom' : Dom)
    (place : NodeId → NodeId) (rank : Nat) (nodes : List NodeId) : Prop :=
  ∀ e ∈ unwrapped dom (scanFrom dom rank (nodes.filter (isNumbered dom numbering))),
    BoxedAt dom' dom.size e.node (shownEquationNumber number e.sequence) (place e.node)

namespace Labelled

variable {nodes more : List NodeId}

theorem append : Labelled numbering number dom dom' place rank (nodes ++ more) ↔
    Labelled numbering number dom dom' place rank nodes ∧
      Labelled numbering number dom dom' place
        (rank + (nodes.filter (isNumbered dom numbering)).length) more := by
  simp only [Labelled, unwrapped, List.filter_append, scanFrom_append, List.mem_append, or_imp,
    forall_and]

theorem cons_of_numbered (hi : isNumbered dom numbering i) :
    Labelled numbering number dom dom' place rank (i :: nodes) ↔
      (isWrapped dom i = false →
        BoxedAt dom' dom.size i (shownEquationNumber number rank) (place i)) ∧
      Labelled numbering number dom dom' place (rank + 1) nodes := by
  cases hwrapped : isWrapped dom i <;>
    simp [Labelled, unwrapped, hi, scanFrom, hwrapped]

theorem cons_of_not_numbered (hi : isNumbered dom numbering i = false) :
    Labelled numbering number dom dom' place rank (i :: nodes) ↔
      Labelled numbering number dom dom' place rank nodes := by
  simp [Labelled, hi]

end Labelled

namespace Boxing

/-- Trees side by side, where each is numbered as it should be. -/
theorem map_place {children : List NodeId}
    (hcount : ∀ c ∈ children, (dom.tree c).count (isNumberedAt numbering) above =
      ((dom.preorder c).filter (isNumbered dom numbering)).length)
    (htree : ∀ c ∈ children, ∀ rank,
      Labelled numbering number dom dom' place rank (dom.preorder c) →
        dom'.tree (place c) = numberTree numbering number above rank (dom.tree c))
    (hlabels : Labelled numbering number dom dom' place rank (children.flatMap dom.preorder)) :
    (children.map place).map dom'.tree =
      numberForest numbering number above rank (children.map dom.tree) := by
  induction children generalizing rank with
  | nil => rfl
  | cons c rest ih =>
    rw [List.flatMap_cons, Labelled.append] at hlabels
    have hrest := ih (fun d hd => hcount d (List.mem_cons_of_mem c hd))
      (fun d hd => htree d (List.mem_cons_of_mem c hd)) hlabels.2
    simp only [List.map_cons, numberForest]
    rw [htree c List.mem_cons_self rank hlabels.1, hcount c List.mem_cons_self, hrest]

/-- Below a node, where what is below each child is numbered as it should be. -/
theorem forest_place (hb : Boxing number dom dom' equations place) (h : dom.WellFormed)
    (hi : i < dom.size) (habove : dom.StandsBelow ownerSearchDepth i above)
    (htree : ∀ c, dom.parent? (some c) = some i → ∀ rank,
      Labelled numbering number dom dom' place rank (dom.preorder c) →
        dom'.tree (place c) =
          numberTree numbering number (dom.content? (some i) :: above) rank (dom.tree c))
    (hlabels : Labelled numbering number dom dom' place rank
      ((dom.children (some i)).flatMap dom.preorder)) :
    dom'.forest i =
      numberForest numbering number (dom.content? (some i) :: above) rank (dom.forest i) := by
  rw [forest, hb.children i hi, forest]
  refine map_place (fun c hc => ?_) (fun c hc => htree c (h.mem_children_iff.mp hc)) hlabels
  have hci := h.mem_children_iff.mp hc
  exact (reads_isNumberedAt dom numbering).count_tree h (lt_size_of_parent? hci) (habove.child hci)

/-- Below every node the tree is the old one with its equations numbered. -/
theorem tree_place (hb : Boxing number dom dom' equations place) (h : dom.WellFormed)
    (hstays : ∀ i, (isNumbered dom numbering i → isWrapped dom i) → place i = i) (hi : i < dom.size)
    (habove : dom.StandsBelow ownerSearchDepth i above)
    (hlabels : Labelled numbering number dom dom' place rank (dom.preorder i)) :
    dom'.tree (place i) = numberTree numbering number above rank (dom.tree i) := by
  induction i using h.subtree_induction generalizing above rank with
  | step i ih =>
    have hinside : ∀ rank, Labelled numbering number dom dom' place rank
          ((dom.children (some i)).flatMap dom.preorder) →
        dom'.tree i = .node (dom.content? (some i))
          (numberForest numbering number (dom.content? (some i) :: above) rank (dom.forest i)) := by
      intro rank hlabels
      rw [hb.wellFormed.tree_eq (hi.trans_le hb.size_le), hb.content i hi]
      congr 1
      exact hb.forest_place h hi habove
        (fun c hci _ => ih c hci (lt_size_of_parent? hci) (habove.child hci)) hlabels
    rw [h.tree_eq hi, numberTree, reads_isNumberedAt dom numbering i above habove,
      reads_isWrappedAt dom i above habove]
    rw [h.preorder_eq hi] at hlabels
    cases hnumbered : isNumbered dom numbering i with
    | false =>
      rw [Labelled.cons_of_not_numbered hnumbered] at hlabels
      rw [hstays i (by simp [hnumbered]), hinside rank hlabels]
      rfl
    | true =>
      rw [Labelled.cons_of_numbered hnumbered] at hlabels
      cases hwrapped : isWrapped dom i with
      | true =>
        rw [hstays i fun _ => hwrapped, hinside (rank + 1) hlabels.2]
        rfl
      | false =>
        obtain ⟨content, box, text, -, -, -, -, hbox⟩ := hlabels.1 hwrapped
        rw [hbox.tree_display hb.wellFormed, hinside (rank + 1) hlabels.2]
        rfl

end Boxing

/-! ### The pass -/

/-- Is the node at this position an equation that gets a box? -/
def getsBoxAt (numbering : Numbering) (position : Position) : Bool :=
  isNumberedAt numbering position && !isWrappedAt position

theorem reads_getsBoxAt (dom : Dom) (numbering : Numbering) :
    dom.Reads ownerSearchDepth (getsBoxAt numbering)
      fun i => isNumbered dom numbering i && !isWrapped dom i := fun i above habove => by
  rw [getsBoxAt, reads_isNumberedAt dom numbering i above habove,
    reads_isWrappedAt dom i above habove]

/-- Where the root of a fragment stands. -/
def rootPosition (f : Fragment) : Position :=
  f.dom.content? (some f.root) :: f.dom.contentsAbove ownerSearchDepth f.root

theorem standsBelow_rootPosition {c : NodeId} (hc : f.dom.parent? (some c) = some f.root) :
    f.dom.StandsBelow ownerSearchDepth c (rootPosition f) :=
  (f.dom.standsBelow_contentsAbove ownerSearchDepth f.root).child hc

theorem countAll_forest {holds : Position → Bool} {q : NodeId → Bool} (h : f.WellFormed)
    (hreads : f.dom.Reads ownerSearchDepth holds q) :
    Tree.countAll holds (rootPosition f) f.forest =
      ((f.dom.descendants (some f.root)).filter q).length := by
  rw [h.dom.descendants_eq h.root]
  refine countAll_map fun c hc => ?_
  have hroot := h.dom.mem_children_iff.mp hc
  exact hreads.count_tree h.dom (lt_size_of_parent? hroot) (standsBelow_rootPosition hroot)

theorem isNumbered_of_mem_unwrapped {x : NodeId}
    (hx : x ∈ (unwrapped f.dom (scanEquations f numbering)).map (·.node)) :
    isNumbered f.dom numbering x ∧ ¬ isWrapped f.dom x := by
  obtain ⟨e, he, rfl⟩ := List.mem_map.mp hx
  obtain ⟨hscanned, hwrapped⟩ := List.mem_filter.mp he
  have hmem : e.node ∈ numberedEquations f numbering := by
    rw [← map_node_scanEquations]
    exact List.mem_map_of_mem hscanned
  exact ⟨(List.mem_filter.mp hmem).2, by simpa using hwrapped⟩

/-- In a chapter with a number, the numbering of equations makes of the trees of the chapter what the
recursion over trees says, with ranks from one on. Without the new nodes the trees are the old ones, and
as many equations are counted as get a box. In a chapter without a number nothing happens. -/
theorem numberEquations_numbers_trees (h : f.WellFormed) (numbering : Numbering) (ctx : Context) :
    let result := numberEquations numbering ctx f
    (∀ number, ctx.chapter?.bind (·.number) = some number →
      result.1.forest = numberForest numbering number (rootPosition f) 1 f.forest ∧
      result.1.dom.forestWithout (f.dom.size ≤ ·) result.1.root = f.forest ∧
      result.2 = ⟨Tree.countAll (getsBoxAt numbering) (rootPosition f) f.forest, []⟩) ∧
    (ctx.chapter?.bind (·.number) = none → result = (f, .empty)) := by
  intro result
  refine ⟨fun number hnumber => ?_, fun hnone => by simp [result, numberEquations, hnone]⟩
  obtain ⟨place, hb⟩ := exists_boxing_wrapAll number h.dom (nodup_scanEquations h numbering)
    fun e he => exists_parent_of_mem_scanEquations h he
  have hstays : ∀ i, (isNumbered f.dom numbering i → isWrapped f.dom i) → place i = i :=
    fun i hi => hb.unboxed i fun hmem =>
      (isNumbered_of_mem_unwrapped hmem).2 (hi (isNumbered_of_mem_unwrapped hmem).1)
  have hlabels : Labelled numbering number f.dom (wrapAll number f.dom (scanEquations f numbering)).1
      place 1 ((f.dom.children (some f.root)).flatMap f.dom.preorder) := by
    rw [Labelled, ← h.dom.descendants_eq h.root]
    exact hb.boxed
  have hresult : result = _ := numberEquations_eq hnumber numbering f
  rw [hresult]
  refine ⟨?_, hb.forestWithout_eq h.dom h.root, ?_⟩
  · refine hb.forest_place h.dom h.root (f.dom.standsBelow_contentsAbove _ f.root)
      (fun c hroot _ hlabels => ?_) hlabels
    exact hb.tree_place h.dom hstays (lt_size_of_parent? hroot) (standsBelow_rootPosition hroot)
      hlabels
  · rw [countAll_forest h (reads_getsBoxAt f.dom numbering),
      (wrapAll_scanEquations number h numbering).2.1, numberedEquations, List.filter_filter]
    simp only [Bool.and_comm]

/-- Of two equations, one inside the other, each gets a box of its own, the outer one the first
number. -/
theorem numbers_of_nested_equations :
    let equation : Content := .element ⟨.mathml, "math"⟩ [.plain "display" "block"]
    let dom := (((empty.create equation).1.append (some 0) (some 1)).create equation).1.append
      (some 1) (some 2)
    let ctx : Context := ⟨⟨[⟨"d", some (.ordinal 2), "T", none, .chapters⟩]⟩, .empty, "d"⟩
    let result := numberEquations .allDisplay ctx ⟨dom, 0⟩
    result.1.forest = [boxTree "(2.1)" (.node (some equation)
      [boxTree "(2.2)" (.node (some equation) [])])] ∧ result.2 = ⟨2, []⟩ := by
  intro equation dom ctx result
  have hwf : dom.WellFormed :=
    (wellFormed_empty.append_create equation (p := 0) (by decide)).append_create equation (p := 1)
      (by decide)
  obtain ⟨htrees, -, hreport⟩ := (numberEquations_numbers_trees (f := ⟨dom, 0⟩) ⟨hwf, by decide⟩
    .allDisplay ctx).1 (.ordinal 2) (by rfl)
  exact ⟨htrees.trans (by cbv), hreport.trans (by decide +kernel)⟩

end Pass
end CrossRef
