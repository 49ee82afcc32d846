import CrossRef.Pass.Reference

/-!
The texts of references. What is written for an equation is written again when it is read.
-/
namespace CrossRef
namespace Pass

open Index

variable {entry : EquationEntry} {otherChapter : Bool}

theorem unbracket?_bracketed (label : String) :
    unbracket? ("[" ++ label ++ "]").toList = some label.toList := by
  simp [unbracket?]

/-- A label does not start with a bracket. -/
theorem unbracket?_equationLabel (entry : EquationEntry) (otherChapter : Bool) :
    unbracket? (equationLabel entry otherChapter).toList = none := by
  simp [equationLabel, unbracket?]

theorem equationText_label (identifier : String) :
    equationText (equationLabel entry otherChapter) identifier entry otherChapter =
      equationLabel entry otherChapter := by
  rw [equationText, unbracket?_equationLabel]

theorem equationText_bracketed (identifier : String) :
    equationText ("[" ++ equationLabel entry otherChapter ++ "]") identifier entry otherChapter =
      "[" ++ equationLabel entry otherChapter ++ "]" := by
  rw [equationText, unbracket?_bracketed]
  simp

/-- The text of a link to an equation stays as it is once it was written. -/
theorem equationText_equationText (text identifier : String) (entry : EquationEntry)
    (otherChapter : Bool) :
    equationText (equationText text identifier entry otherChapter) identifier entry otherChapter =
      equationText text identifier entry otherChapter := by
  have hcases : equationText text identifier entry otherChapter = equationLabel entry otherChapter ∨
      equationText text identifier entry otherChapter =
        "[" ++ equationLabel entry otherChapter ++ "]" := by
    rw [equationText]
    cases unbracket? text.toList with
    | none => exact .inl rfl
    | some inner =>
      dsimp only
      split
      · exact .inr rfl
      · exact .inl rfl
  rcases hcases with hlabel | hbrackets
  · rw [hlabel, equationText_label]
  · rw [hbrackets, equationText_bracketed]

/-- A chapter that a link names by its own identifier has one name. -/
theorem chapterNames_id (chapter : Chapter) (hid : chapter.id ≠ "")
    (href : chapter.refId = none) : chapterNames chapter.id chapter = [chapter.id] := by
  have hsort (s : String) : [s, s].mergeSort nameBefore = [s, s] := by
    simp [List.mergeSort, List.MergeSort.Internal.splitInTwo, List.merge]
  simp [chapterNames, href, hid, hsort, dropRepeats]

end Pass
end CrossRef
