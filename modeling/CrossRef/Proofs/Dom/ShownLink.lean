import CrossRef.Proofs.Construction.Run
import CrossRef.Proofs.Dom.Lineage
import CrossRef.Proofs.Dom.Spine

/-!
What the links of a fragment lead to and what they say. Both can be read off the trees below its root.
-/
namespace CrossRef
namespace Markup

variable {β : Type}

namespace Tree

mutual

/-- What is found at the nodes of a tree, in document order. A node is seen as its content and the trees
below it. -/
def collect (find : Option Content → List Tree → List β) : Tree → List β
  | .node content below => find content below ++ collectAll find below

/-- What is found at the nodes of several trees. -/
def collectAll (find : Option Content → List Tree → List β) : List Tree → List β
  | [] => []
  | tree :: rest => collect find tree ++ collectAll find rest

end

theorem collectAll_append (find : Option Content → List Tree → List β) (trees more : List Tree) :
    collectAll find (trees ++ more) = collectAll find trees ++ collectAll find more := by
  induction trees with
  | nil => rfl
  | cons tree rest ih => rw [List.cons_append, collectAll, ih, collectAll, List.append_assoc]

/-- The text of a text node. -/
def textIn? : Option Content → Option String
  | some (.text text) => some text
  | _ => none

/-- The text of trees. -/
def textOf (trees : List Tree) : String :=
  String.join (collectAll (fun content _ => (textIn? content).toList) trees)

theorem textOf_append (trees more : List Tree) :
    textOf (trees ++ more) = textOf trees ++ textOf more := by
  rw [textOf, collectAll_append, String.join_append, textOf, textOf]

theorem textOf_ofText (text : String) : textOf [ofText text] = text := by
  simp [textOf, collectAll, collect, ofText, textIn?]

/-- Characters in an element that is empty. -/
theorem textOf_addChars_nil (chars : List Char) : textOf (addChars [] chars) = String.ofList chars := by
  unfold addChars
  split
  · next h => rw [h]; rfl
  · exact textOf_ofText _

/-- A node that is not text says what stands below it. -/
theorem textOf_node {content : Option Content} (hcontent : textIn? content = none) (below : List Tree) :
    textOf [.node content below] = textOf below := by
  simp [textOf, collectAll, collect, hcontent]

theorem textOf_element (name : Name) (attributes : List Attribute) (below : List Tree) :
    textOf [.node (some (.element name attributes)) below] = textOf below :=
  textOf_node rfl below

theorem textOf_eq_join (trees : List Tree) :
    textOf trees = String.join (trees.map fun tree => textOf [tree]) := by
  induction trees with
  | nil => rfl
  | cons tree rest ih =>
    rw [List.map_cons, String.join_cons, ← ih, ← textOf_append, List.singleton_append]

/-- A link, as what it leads to and what it says. -/
def linkAt (content : Option Content) (below : List Tree) : List (Option String × String) :=
  if isElementIn content "a" then [(attributeIn? content "href", textOf below)] else []

/-- The links in trees. -/
def linksIn (trees : List Tree) : List (Option String × String) := collectAll linkAt trees

theorem linksIn_append (trees more : List Tree) :
    linksIn (trees ++ more) = linksIn trees ++ linksIn more :=
  collectAll_append _ trees more

theorem linksIn_node (content : Option Content) (below : List Tree) :
    linksIn [.node content below] = linkAt content below ++ linksIn below := by
  simp [linksIn, collectAll, collect]

/-- Text adds no links. -/
theorem linksIn_addText (trees : List Tree) (text : String) :
    linksIn (addText trees text) = linksIn trees := by
  rw [addText]
  cases hlast : trees.getLast? with
  | none => simp [linksIn, collectAll_append, collectAll, collect, ofText, linkAt, isElementIn]
  | some last =>
    have hsplit := List.dropLast_append_getLast? last hlast
    cases hmore : extend? text last with
    | none => simp [hmore, linksIn, collectAll_append, collectAll, collect, ofText, linkAt, isElementIn]
    | some extended =>
      have hsame : collectAll linkAt [extended] = collectAll linkAt [last] := by
        unfold extend? at hmore
        split at hmore
        · obtain rfl := Option.some_inj.mp hmore
          rfl
        · simp at hmore
      rw [Option.bind_some, hmore]
      dsimp only
      nth_rewrite 2 [← hsplit]
      rw [linksIn, linksIn, collectAll_append, collectAll_append, hsame]

theorem linksIn_addChars (trees : List Tree) (chars : List Char) :
    linksIn (addChars trees chars) = linksIn trees := by
  unfold addChars
  split
  · rfl
  · exact linksIn_addText trees _

end Tree

namespace Dom

variable {dom : Dom} {i root : NodeId}

theorem collectAll_map {find : Option Content → List Tree → List β} {children : List NodeId}
    (h : ∀ c ∈ children, (dom.tree c).collect find =
      (dom.preorder c).flatMap fun j => find (dom.content? (some j)) (dom.forest j)) :
    Tree.collectAll find (children.map dom.tree) =
      (children.flatMap dom.preorder).flatMap fun j => find (dom.content? (some j)) (dom.forest j) := by
  induction children with
  | nil => rfl
  | cons c rest ih =>
    rw [List.map_cons, Tree.collectAll, h c List.mem_cons_self,
      ih fun d hd => h d (List.mem_cons_of_mem c hd), List.flatMap_cons, List.flatMap_append]

/-- What is found in a tree is what is found at its nodes in document order. -/
theorem WellFormed.collect_tree (h : dom.WellFormed) (hi : i < dom.size)
    (find : Option Content → List Tree → List β) :
    (dom.tree i).collect find =
      (dom.preorder i).flatMap fun j => find (dom.content? (some j)) (dom.forest j) := by
  induction i using h.subtree_induction with
  | step i ih =>
    have hbelow : Tree.collectAll find (dom.forest i) = _ := collectAll_map fun c hc => by
      have hci := h.mem_children_iff.mp hc
      exact ih c hci (lt_size_of_parent? hci)
    rw [h.tree_eq hi, Tree.collect, hbelow, h.preorder_eq hi, List.flatMap_cons]

theorem WellFormed.collectAll_forest (h : dom.WellFormed) (hroot : root < dom.size)
    (find : Option Content → List Tree → List β) :
    Tree.collectAll find (dom.forest root) =
      (dom.descendants (some root)).flatMap fun j => find (dom.content? (some j)) (dom.forest j) := by
  rw [h.descendants_eq hroot]
  exact collectAll_map fun c hc => h.collect_tree (lt_size_of_parent? (h.mem_children_iff.mp hc)) find

/-- The text of a node that can hold others is that of the trees below it. -/
theorem WellFormed.textOf_eq (h : dom.WellFormed) (hi : dom.CanHold i) :
    dom.textOf (some i) = Tree.textOf (dom.forest i) := by
  rw [textOf_of_not_text hi.not_text, Tree.textOf, h.collectAll_forest hi.lt_size,
    ← List.filterMap_eq_flatMap_toList]
  rfl

end Dom

namespace Fragment

variable {f : Fragment}

/-- The links of a fragment in document order, each with what it leads to and what it says. -/
def shownLinks (f : Fragment) : List (Option String × String) :=
  (f.elements "a").map fun link =>
    (f.dom.attribute? (some link) "href", f.dom.textOf (some link))

/-- The links of a fragment can be read off its trees. -/
theorem WellFormed.shownLinks_eq (h : f.WellFormed) :
    f.shownLinks = Tree.linksIn (f.dom.forest f.root) := by
  rw [Tree.linksIn, h.dom.collectAll_forest h.root, shownLinks, elements, Dom.elementsBelow]
  induction f.dom.descendants (some f.root) with
  | nil => rfl
  | cons i rest ih =>
    rw [List.flatMap_cons, ← ih, Tree.linkAt, ← Dom.isElement_eq, ← Dom.attribute?_eq]
    cases hlink : f.dom.isElement (some i) "a" with
    | false => rw [List.filter_cons_of_neg (by simp [hlink])]; rfl
    | true =>
      rw [List.filter_cons_of_pos (by simp [hlink]), List.map_cons,
        h.dom.textOf_eq (.of_name (Dom.name?_isSome_of_isElement hlink))]
      rfl

end Fragment
end Markup
end CrossRef
