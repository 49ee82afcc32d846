import CrossRef.Markup.Dom.Walk

/-!
Events: a tree as the sequence in which its elements open and close. The sequence is produced
from a list of pending work, so no recursion follows the depth of the tree; `eventsOf` says the
same by recursion on the tree.
-/
namespace CrossRef
namespace Markup

inductive Event
  | opened (name : Name) (attributes : List Attribute)
  | closed (name : Name)
  | text (text : String)
  | comment (text : String)
  | doctype (name : String)
  deriving DecidableEq, Repr, Inhabited

/-- Work that remains: a node to visit, or an element to close. -/
inductive Pending
  | visit (node : NodeId)
  | close (name : Name)
  deriving DecidableEq, Repr, Inhabited

namespace Dom

/-- Take up the first piece of pending work until none is left. -/
def eventsFrom (dom : Dom) : Nat → List Pending → List Event
  | 0, _ => []
  | _, [] => []
  | fuel + 1, .close name :: rest => .closed name :: eventsFrom dom fuel rest
  | fuel + 1, .visit i :: rest =>
    match dom.content? (some i) with
    | none => eventsFrom dom fuel rest
    | some .document => eventsFrom dom fuel ((dom.children (some i)).map .visit ++ rest)
    | some (.element name attributes) =>
      .opened name attributes ::
        eventsFrom dom fuel ((dom.children (some i)).map .visit ++ .close name :: rest)
    | some (.text text) => .text text :: eventsFrom dom fuel rest
    | some (.comment text) => .comment text :: eventsFrom dom fuel rest
    | some (.doctype name) => .doctype name :: eventsFrom dom fuel rest

/-- A bound on the work: an arena without cycles has fewer paths than sets of nodes, and a path
costs at most an opening, a closing and one link past the end. -/
def workBound (dom : Dom) : Nat := Nat.pow 2 (dom.size + 2)

/-- The events of a node with all that is below it. -/
def events (dom : Dom) (l : Link) : List Event :=
  eventsFrom dom dom.workBound (l.toList.map .visit)

/-- The events of what is below a node, without the node itself. -/
def innerEvents (dom : Dom) (l : Link) : List Event :=
  eventsFrom dom dom.workBound ((dom.children l).map .visit)

/-- The events of a node by recursion on the tree, down to the given depth. -/
def eventsOf (dom : Dom) : Nat → NodeId → List Event
  | 0, _ => []
  | depth + 1, i =>
    let inner := (dom.children (some i)).flatMap (eventsOf dom depth)
    match dom.content? (some i) with
    | none => []
    | some .document => inner
    | some (.element name attributes) => .opened name attributes :: inner ++ [.closed name]
    | some (.text text) => [.text text]
    | some (.comment text) => [.comment text]
    | some (.doctype name) => [.doctype name]

end Dom
end Markup
end CrossRef
