import CrossRef.Markup.Dom.Basic

/-!
Walks over the arena: the children of a node and its descendants in document order, found from
the links alone. Both walks visit a node at most once, so the size of the arena bounds them.
-/
namespace CrossRef
namespace Markup
namespace Dom

/-- The chain of next siblings that starts at a link. A link past the end of the arena ends the
chain but belongs to it. -/
def siblingsFrom (dom : Dom) : Nat → Link → List NodeId
  | 0, _ => []
  | _, none => []
  | fuel + 1, some i => i :: siblingsFrom dom fuel ((dom.node? (some i)).bind (·.next))

/-- The children of a node, first to last. -/
def children (dom : Dom) (l : Link) : List NodeId :=
  siblingsFrom dom (dom.size + 1) (dom.firstChild? l)

/-- The nearest next sibling of a node or of one of its ancestors, looking no higher than `root`. -/
def following (dom : Dom) (root : Link) : Nat → Link → Link
  | 0, _ => none
  | fuel + 1, cursor =>
    if cursor = root then none
    else match dom.node? cursor with
      | none => none
      | some node =>
        if node.next.isSome then node.next
        else if node.parent.isSome then following dom root fuel node.parent
        else none

/-- The node after this one in document order, inside `root`. -/
def successor (dom : Dom) (root : Link) (i : NodeId) (node : Node) : Link :=
  if node.firstChild.isSome then node.firstChild
  else following dom root (dom.size + 1) (some i)

def walkFrom (dom : Dom) (root : Link) : Nat → Link → List NodeId
  | 0, _ => []
  | _, none => []
  | fuel + 1, some i =>
    match dom.node? (some i) with
    | none => []
    | some node => i :: walkFrom dom root fuel (dom.successor root i node)

/-- Every node below `root` in document order, without `root` itself. -/
def descendants (dom : Dom) (root : Link) : List NodeId :=
  walkFrom dom root (dom.size + 1) (dom.firstChild? root)

/-- The text of a text node, or of all text nodes below another node. -/
def textOf (dom : Dom) (l : Link) : String :=
  match dom.content? l with
  | some (.text text) => text
  | _ => String.join <| (dom.descendants l).filterMap fun i =>
      match dom.content? (some i) with
      | some (.text text) => some text
      | _ => none

/-- The elements below `root` with the given local name, in document order. -/
def elementsBelow (dom : Dom) (root : Link) (label : String) : List NodeId :=
  (dom.descendants root).filter fun i => dom.isElement (some i) label

/-- Is one node the other or an ancestor of it? -/
def isInside (dom : Dom) (outer : Link) : Nat → Link → Bool
  | 0, _ => false
  | _, none => false
  | fuel + 1, some i => some i = outer || isInside dom outer fuel (dom.parent? (some i))

/-- Does `inner` lie in the subtree of `outer`? -/
def contains (dom : Dom) (outer inner : Link) : Bool :=
  dom.isInside outer (dom.size + 1) inner

end Dom
end Markup
end CrossRef
