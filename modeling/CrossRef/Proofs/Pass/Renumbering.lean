import CrossRef.Proofs.Pass.Boxing
import CrossRef.Proofs.Pass.Settled

/-!
Numbering a chapter again. In a boxed chapter nothing is left to box, and what is numbered there was
numbered before, in the same order: boxes can only put owners out of reach.
-/
namespace CrossRef
namespace Pass

open Markup Markup.Dom Index

variable {dom' : Dom} {f : Fragment} {place : NodeId → NodeId} {number : ChapterNumber}
  {numbering : Numbering} {equations : List ScannedEquation} {moved : List NodeId}

/-- New nodes are not numbered. -/
theorem Annotated.lt_size_of_isNumbered (ha : Annotated f.dom dom' moved) {x : NodeId}
    (hx : isNumbered dom' numbering x) : x < f.dom.size := by
  by_contra hge
  have hmath := (Bool.and_eq_true_iff.mp hx).1
  have hdiv := ha.fresh x "math" (Nat.le_of_not_lt hge) (Bool.and_eq_true_iff.mp hmath).1
  exact absurd hdiv (by decide)

/-- What is numbered in a boxed chapter are old nodes in their old order. -/
theorem Boxing.numberedEquations_eq (hb : Boxing number f.dom dom' equations place)
    (ha : Annotated f.dom dom' moved) (h : f.WellFormed) (numbering : Numbering) :
    numberedEquations { f with dom := dom' } numbering =
      (f.dom.descendants (some f.root)).filter (isNumbered dom' numbering) := by
  rw [← hb.filter_descendants h.dom h.root, List.filter_filter, numberedEquations]
  refine List.filter_congr fun x _ => ?_
  cases hx : isNumbered dom' numbering x with
  | false => rfl
  | true => simpa using ha.lt_size_of_isNumbered hx

/-- What is numbered in a boxed chapter was numbered before, in the same order. -/
theorem Boxing.numberedEquations_sublist (hb : Boxing number f.dom dom' equations place)
    (ha : Annotated f.dom dom' moved) (h : f.WellFormed) (numbering : Numbering) :
    (numberedEquations { f with dom := dom' } numbering).Sublist (numberedEquations f numbering) := by
  have htwice : numberedEquations { f with dom := dom' } numbering =
      (numberedEquations f numbering).filter (isNumbered dom' numbering) := by
    rw [hb.numberedEquations_eq ha h, numberedEquations, List.filter_filter]
    refine List.filter_congr fun x hx => ?_
    cases hnumbered : isNumbered dom' numbering x with
    | false => rfl
    | true =>
      have hlt := Above.lt_size ((h.dom.mem_descendants_iff h.root).mp hx)
      have hcontent := ha.content x hlt
      have hold : isNumbered f.dom numbering x := isNumbered_of_owner
        (isDisplayMath_congr (name?_congr hcontent) (attribute?_congr hcontent _))
        (fun s => ha.owner _ x s hlt) hnumbered
      rw [hold, Bool.true_and]
  exact htwice ▸ List.filter_sublist

/-- If every display equation is numbered, the same ones are numbered in a boxed chapter. -/
theorem Boxing.numberedEquations_allDisplay (hb : Boxing number f.dom dom' equations place)
    (ha : Annotated f.dom dom' moved) (h : f.WellFormed) :
    numberedEquations { f with dom := dom' } .allDisplay = numberedEquations f .allDisplay := by
  rw [hb.numberedEquations_eq ha h, numberedEquations]
  refine List.filter_congr fun x hx => ?_
  have hcontent := ha.content x (Above.lt_size ((h.dom.mem_descendants_iff h.root).mp hx))
  rw [isNumbered, isNumbered, isDisplayMath_congr (name?_congr hcontent) (attribute?_congr hcontent _)]

/-- Numbering a chapter that was numbered changes nothing. What is numbered the second time was numbered
the first time and in the same order, and if every display equation is numbered it is the same. -/
theorem numberEquations_twice (h : f.WellFormed) (numbering : Numbering) (ctx : Context) :
    let f' := (numberEquations numbering ctx f).1
    let scanned := (scanEquations f numbering).map (·.node)
    let again := (scanEquations f' numbering).map (·.node)
    numberEquations numbering ctx f' = (f', .empty) ∧ again.Sublist scanned ∧
      (numbering = .allDisplay → again = scanned) := by
  intro f' scanned again
  cases hnumber : ctx.chapter?.bind (·.number) with
  | none =>
    have hsame : f' = f := by simp [f', numberEquations, hnumber]
    simp [again, scanned, hsame, numberEquations, hnumber]
  | some number =>
    obtain ⟨place, hb⟩ := exists_boxing_wrapAll number h.dom (nodup_scanEquations h numbering)
      fun e he => exists_parent_of_mem_scanEquations h he
    have ha := (wrapAll_scanEquations number h numbering).1
    have hresult : f' = { f with dom := (wrapAll number f.dom (scanEquations f numbering)).1 } :=
      congrArg Prod.fst (numberEquations_eq hnumber numbering f)
    simp only [again, scanned, map_node_scanEquations]
    refine ⟨numberEquations_of_allWrapped fun _ => allWrapped_numberEquations hnumber h numbering,
      ?_, fun hall => ?_⟩
    · rw [hresult]
      exact hb.numberedEquations_sublist ha h numbering
    · subst hall
      rw [hresult]
      exact hb.numberedEquations_allDisplay ha h

/-- The owner of an equation is in reach only before the equation is boxed, so the second time the
equation is not numbered. -/
theorem numberEquations_twice_out_of_reach :
    let made (dom : Dom) (content : Content) (p : NodeId) :=
      (dom.create content).1.append (some p) (some dom.size)
    let dom := made (made (made empty (.element (.html "div") [.plain "id" "eq:a"]) 0)
      (.element (.html "p") []) 1) (.element ⟨.mathml, "math"⟩ [.plain "display" "block"]) 2
    let ctx : Context := ⟨⟨[⟨"d", some (.ordinal 2), "T", none, .chapters⟩]⟩, .empty, "d"⟩
    let f : Fragment := ⟨dom, 0⟩
    let f' := (numberEquations .identifiedOnly ctx f).1
    (scanEquations f .identifiedOnly).map (·.node) = [3] ∧
      (scanEquations f' .identifiedOnly).map (·.node) = [] ∧
      numberEquations .identifiedOnly ctx f' = (f', .empty) := by
  intro made dom ctx f f'
  have hwf : f.WellFormed :=
    ⟨((wellFormed_empty.append_create _ (p := 0) (by decide)).append_create _ (p := 1)
      (by decide)).append_create _ (p := 2) (by decide), by decide⟩
  exact ⟨by decide +kernel, by decide +kernel, (numberEquations_twice hwf .identifiedOnly ctx).1⟩

end Pass
end CrossRef
