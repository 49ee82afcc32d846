import CrossRef.Markup.Name

/-!
The document arena: nodes stand in one array and name each other by position. A link is a
position or nothing, and a link past the end of the array names no node. Position 0 is the
document. Detached nodes stay in the arena, where nothing leads to them.
-/
namespace CrossRef
namespace Markup

abbrev NodeId := Nat

/-- A reference to a node, or to none. -/
abbrev Link := Option NodeId

inductive Content
  | document
  | element (name : Name) (attributes : List Attribute)
  | text (text : String)
  | comment (text : String)
  | doctype (name : String)
  deriving DecidableEq, Repr, Inhabited

/-- A node with its five links. The children of a node are a doubly linked list. -/
structure Node where
  content : Content
  parent : Link
  firstChild : Link
  lastChild : Link
  previous : Link
  next : Link
  deriving DecidableEq, Repr, Inhabited

/-- A node with no links. -/
def Node.alone (content : Content) : Node := ⟨content, none, none, none, none, none⟩

structure Dom where
  nodes : Array Node
  deriving DecidableEq, Repr, Inhabited

namespace Dom

/-- The arena that holds the document node alone. -/
def empty : Dom := ⟨#[.alone .document]⟩

/-- The position of the document node. -/
abbrev document : NodeId := 0

def size (dom : Dom) : Nat := dom.nodes.size

/-- The node a link leads to. -/
def node? (dom : Dom) : Link → Option Node
  | none => none
  | some i => dom.nodes[i]?

@[simp] theorem node?_none (dom : Dom) : dom.node? none = none := rfl

theorem node?_isSome_iff (dom : Dom) (i : NodeId) :
    (dom.node? (some i)).isSome ↔ i < dom.size := by
  simp [node?, size]

/-- Change the node a link leads to, if there is one. -/
def modify (dom : Dom) : Link → (Node → Node) → Dom
  | none, _ => dom
  | some i, f => ⟨dom.nodes.modify i f⟩

@[simp] theorem size_modify (dom : Dom) (l : Link) (f : Node → Node) :
    (dom.modify l f).size = dom.size := by
  cases l <;> simp [modify, size]

theorem node?_modify (dom : Dom) (l : Link) (f : Node → Node) (i : NodeId) :
    (dom.modify l f).node? (some i) =
      if l = some i then (dom.node? (some i)).map f else dom.node? (some i) := by
  cases l with
  | none => simp [modify]
  | some j => simp [modify, node?, Array.getElem?_modify]

/-- Add an unlinked node. Its position is the size of the arena before. -/
def create (dom : Dom) (content : Content) : Dom × NodeId :=
  (⟨dom.nodes.push (.alone content)⟩, dom.size)

@[simp] theorem size_create (dom : Dom) (content : Content) :
    (dom.create content).1.size = dom.size + 1 := by
  simp [create, size]

theorem node?_create (dom : Dom) (content : Content) (i : NodeId) :
    (dom.create content).1.node? (some i) =
      if i = dom.size then some (.alone content) else dom.node? (some i) := by
  simp only [create, node?, Array.getElem?_push]
  rfl

def parent? (dom : Dom) (l : Link) : Link := (dom.node? l).bind (·.parent)

def firstChild? (dom : Dom) (l : Link) : Link := (dom.node? l).bind (·.firstChild)

def lastChild? (dom : Dom) (l : Link) : Link := (dom.node? l).bind (·.lastChild)

def content? (dom : Dom) (l : Link) : Option Content := (dom.node? l).map (·.content)

/-- The name of an element; other nodes have none. -/
def name? (dom : Dom) (l : Link) : Option Name :=
  match dom.content? l with
  | some (.element name _) => some name
  | _ => none

/-- Is this an element with the given local name, in any vocabulary? -/
def isElement (dom : Dom) (l : Link) (label : String) : Bool :=
  match dom.name? l with
  | some name => name.label == label
  | none => false

/-- The attributes of an element; other nodes have none. -/
def attributes (dom : Dom) (l : Link) : List Attribute :=
  match dom.content? l with
  | some (.element _ attributes) => attributes
  | _ => []

/-- The value of the first attribute with this local name, in any vocabulary. -/
def attribute? (dom : Dom) (l : Link) (label : String) : Option String :=
  ((dom.attributes l).find? (·.name.label == label)).map (·.value)

end Dom
end Markup
end CrossRef
