import CrossRef.Pass.Basic

/-!
Numbers next to equations. Each numbered equation is put into a box of its own, inside a box that
also shows the number. An equation that is in such a box already stays as it is.
-/
namespace CrossRef
namespace Pass

open Markup Index

def displayClass : String := "equation-display"

def contentClass : String := "equation-content"

def numberClass : String := "equation-number"

def divOf (className : String) : Content := .element (.html "div") [.plain "class" className]

/-- Is the parent of the equation a box for equations? -/
def isWrapped (dom : Dom) (equation : NodeId) : Bool :=
  let parent := dom.parent? (some equation)
  dom.isElement parent "div" &&
    (dom.attribute? parent "class").any fun value => (Text.words value).contains contentClass

/-- Put an equation into boxes that show its label. -/
def wrap (dom : Dom) (equation : NodeId) (label : String) : Dom :=
  let (dom, display) := dom.create (divOf displayClass)
  let (dom, content) := dom.create (divOf contentClass)
  let (dom, number) := dom.create (divOf numberClass)
  let dom := dom.insertBefore (some equation) (some display)
  let dom := dom.detach (some equation)
  let dom := dom.append (some content) (some equation)
  let dom := dom.append (some display) (some content)
  let dom := dom.append (some display) (some number)
  dom.appendText (some number) label

/-- What is shown next to an equation. -/
def shownEquationNumber (number : ChapterNumber) (sequence : Nat) : String :=
  "(" ++ equationNumber number sequence ++ ")"

/-- Wrap the equations that are not wrapped yet, and count them. -/
def wrapAll (number : ChapterNumber) : Dom → List ScannedEquation → Dom × Nat
  | dom, [] => (dom, 0)
  | dom, equation :: rest =>
    if isWrapped dom equation.node then wrapAll number dom rest
    else
      let dom := wrap dom equation.node (shownEquationNumber number equation.sequence)
      let (dom, n) := wrapAll number dom rest
      (dom, n + 1)

/-- Show the numbers of the equations of a chapter. -/
def numberEquations (numbering : Numbering) (ctx : Context) (f : Fragment) : Fragment × Report :=
  match ctx.chapter?.bind (·.number) with
  | none => (f, .empty)
  | some number =>
    let (dom, n) := wrapAll number f.dom (scanEquations f numbering)
    ({ f with dom := dom }, ⟨n, []⟩)

end Pass
end CrossRef
