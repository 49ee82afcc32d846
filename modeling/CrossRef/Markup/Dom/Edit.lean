import CrossRef.Markup.Dom.Walk

/-!
Edits of the arena. Each operation relinks the nodes around one place and leaves the rest alone.
A link that leads nowhere makes the part of an edit that concerns it do nothing.
-/
namespace CrossRef
namespace Markup
namespace Dom

/-- Put a detached node after the last child of `parent`. -/
def append (dom : Dom) (parent child : Link) : Dom :=
  let last := dom.lastChild? parent
  ((dom.modify child fun n => { n with parent := parent, previous := last, next := none }).modify
    last fun n => { n with next := child }).modify
      parent fun n => { n with firstChild := n.firstChild.or child, lastChild := child }

/-- Put a detached node directly before `sibling`. -/
def insertBefore (dom : Dom) (sibling new : Link) : Dom :=
  match dom.node? sibling with
  | none => dom
  | some node =>
    let linked := (dom.modify new fun n =>
      { n with parent := node.parent, previous := node.previous, next := sibling }).modify
        sibling fun n => { n with previous := new }
    if node.previous.isSome then linked.modify node.previous fun n => { n with next := new }
    else linked.modify node.parent fun n => { n with firstChild := new }

/-- Extend the text node that is the last child of `parent`, or append a new one. -/
def appendText (dom : Dom) (parent : Link) (text : String) : Dom :=
  let last := dom.lastChild? parent
  match dom.content? last with
  | some (.text old) => dom.modify last fun n => { n with content := .text (old ++ text) }
  | _ =>
    let (dom, i) := dom.create (.text text)
    dom.append parent (some i)

/-- Unlink a node from its parent and siblings. What is below it stays below it. -/
def detach (dom : Dom) (l : Link) : Dom :=
  match dom.node? l with
  | none => dom
  | some node =>
    let dom :=
      if node.previous.isSome then dom.modify node.previous fun n => { n with next := node.next }
      else dom.modify node.parent fun n => { n with firstChild := node.next }
    let dom :=
      if node.next.isSome then dom.modify node.next fun n => { n with previous := node.previous }
      else dom.modify node.parent fun n => { n with lastChild := node.previous }
    dom.modify l fun n => { n with parent := none, previous := none, next := none }

/-- Give the first attribute with this local name a new value, or add a plain one at the end. -/
def updateAttribute (label value : String) : List Attribute → List Attribute
  | [] => [.plain label value]
  | a :: rest =>
    if a.name.label = label then { a with value := value } :: rest
    else a :: updateAttribute label value rest

def setAttribute (dom : Dom) (l : Link) (label value : String) : Dom :=
  dom.modify l fun n =>
    match n.content with
    | .element name attributes =>
      { n with content := .element name (updateAttribute label value attributes) }
    | _ => n

/-- Add those of the given attributes whose full name the element does not have yet. -/
def addMissing (old : List Attribute) : List Attribute → List Attribute
  | [] => old
  | a :: rest =>
    if old.any (·.name = a.name) then addMissing old rest else addMissing (old ++ [a]) rest

def addMissingAttributes (dom : Dom) (l : Link) (new : List Attribute) : Dom :=
  dom.modify l fun n =>
    match n.content with
    | .element name attributes => { n with content := .element name (addMissing attributes new) }
    | _ => n

/-- Detach every child and put one new text node in their place. -/
def replaceChildrenWithText (dom : Dom) (l : Link) (text : String) : Dom :=
  let emptied := (dom.children l).foldl (fun dom child => dom.detach (some child)) dom
  let (dom, i) := emptied.create (.text text)
  dom.append l (some i)

/-- Move every child of `source` to the end of the children of `target`. -/
def reparentChildren (dom : Dom) (source target : Link) : Dom :=
  (dom.children source).foldl
    (fun dom child => (dom.detach (some child)).append target (some child)) dom

end Dom
end Markup
end CrossRef
