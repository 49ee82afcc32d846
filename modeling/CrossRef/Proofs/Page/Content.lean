import CrossRef.Page
import CrossRef.Proofs.Text.Blank
import CrossRef.Proofs.Text.Search

/-!
The content of a source. The ends of a header and of a body open with a character that does not come back
in them, so the frame that is found is the only one.
-/
namespace CrossRef
namespace Page

open Text

variable {html before content after : List Char}

/-- The text is framed: `content` stands between the first end of a header and the first end of a body
after it. -/
structure Framed (html before content after : List Char) : Prop where
  eq : html = before ++ headerEnd ++ content ++ bodyEnd ++ after
  header : ¬ headerEnd <:+: before
  body : ¬ bodyEnd <:+: content

theorem splitFirst?_headerEnd_iff :
    splitFirst? headerEnd html = some (before, after) ↔
      html = before ++ headerEnd ++ after ∧ ¬ headerEnd <:+: before :=
  splitFirst?_eq_some_iff (by decide)

theorem splitFirst?_bodyEnd_iff :
    splitFirst? bodyEnd html = some (before, after) ↔
      html = before ++ bodyEnd ++ after ∧ ¬ bodyEnd <:+: before :=
  splitFirst?_eq_some_iff (by decide)

theorem framed_iff :
    Framed html before content after ↔ ∃ rest,
      splitFirst? headerEnd html = some (before, rest) ∧
      splitFirst? bodyEnd rest = some (content, after) := by
  simp only [splitFirst?_headerEnd_iff, splitFirst?_bodyEnd_iff]
  constructor
  · rintro ⟨rfl, hheader, hbody⟩
    exact ⟨content ++ bodyEnd ++ after, ⟨by simp only [List.append_assoc], hheader⟩, rfl, hbody⟩
  · rintro ⟨rest, ⟨rfl, hheader⟩, rfl, hbody⟩
    exact ⟨by simp only [List.append_assoc], hheader, hbody⟩

theorem extractContent_of_framed {html : String} (h : Framed html.toList before content after) :
    extractContent html = String.ofList (trimChars content) := by
  obtain ⟨rest, hheader, hbody⟩ := framed_iff.mp h
  simp only [extractContent, hheader, hbody]

theorem extractContent_of_not_framed {html : String}
    (h : ¬ ∃ before content after, Framed html.toList before content after) :
    extractContent html = html := by
  rw [extractContent]
  split
  · rfl
  · next before rest hheader =>
    split
    · rfl
    · next content after hbody =>
      exact absurd ⟨before, content, after, framed_iff.mpr ⟨rest, hheader, hbody⟩⟩ h

/-- A text without the end of a body has no frame. -/
theorem extractContent_of_bodyless {html : String} (h : ¬ bodyEnd <:+: html.toList) :
    extractContent html = html := by
  refine extractContent_of_not_framed ?_
  rintro ⟨before, content, after, hframed⟩
  exact h (hframed.eq ▸ ⟨before ++ headerEnd ++ content, after, rfl⟩)

/-- The content of a framed source is what the frame holds, without the blanks at its ends. A source without
a frame is its own content, and so is every content. -/
theorem extractContent_spec (html : String) :
    (∀ before content after, Framed html.toList before content after →
      Trims content (extractContent html).toList) ∧
    ((¬ ∃ before content after, Framed html.toList before content after) →
      extractContent html = html) ∧
    extractContent (extractContent html) = extractContent html := by
  refine ⟨fun before content after h => ?_, extractContent_of_not_framed, ?_⟩
  · rw [extractContent_of_framed h, String.toList_ofList]
    exact trims_trimChars content
  · by_cases h : ∃ before content after, Framed html.toList before content after
    · obtain ⟨before, content, after, h⟩ := h
      refine extractContent_of_bodyless fun hwithin => h.body (hwithin.trans ?_)
      rw [extractContent_of_framed h, String.toList_ofList]
      exact trimChars_infix content
    · rw [extractContent_of_not_framed h, extractContent_of_not_framed h]

/-- Of more ends of headers and bodies than a frame needs, the first that fit are taken. -/
example : extractContent "<header></header> a</header> \n</body>b</body>" = "a</header>" := by decide +kernel

end Page
end CrossRef
