import CrossRef.Proofs.Construction.Reading
import CrossRef.Proofs.Page.Runs
import CrossRef.Proofs.Text.Digit

/-!
What a reader sees of the table of contents: one link for each chapter, in order, to the page of the chapter
and with its number and title, as long as these are plain text.
-/
namespace CrossRef
namespace Page

open Markup Markup.Html Markup.Html.Construction

variable {chapter : Chapter} {chapters : List Chapter} {frames frames' frames'' : List OpenFrame}
  {before after later : List Char} {trees items : List Tree} {piece more : String}

/-! ### What is to be seen -/

/-- The link to a chapter as it should be seen: what it leads to, and what it says. -/
def expectedLink (chapter : Chapter) : Option String × String :=
  (some ("chapters/" ++ chapter.id ++ ".html"),
    match chapter.number with
    | some number => number.shown ++ ". " ++ chapter.title
    | none => chapter.title)

/-- What the manifest says of the chapter is read as it is written. -/
structure IsPlain (chapter : Chapter) : Prop where
  id : isPlain true chapter.id.toList
  number : ∀ label, chapter.number = some (.label label) → isPlain false label.toList
  title : isPlain false chapter.title.toList

/-! ### The elements of the table -/

def paragraph (closed : List Tree) : OpenFrame :=
  ⟨"p", [.plain "class" "section-header"], none, closed⟩

def chapterList (closed : List Tree) : OpenFrame :=
  ⟨"ul", [.plain "class" "chapter-list"], none, closed⟩

def listItem (closed : List Tree) : OpenFrame := ⟨"li", [], none, closed⟩

def chapterLink (target : String) (closed : List Tree) : OpenFrame :=
  ⟨"a", [.plain "href" target], some ⟨"a", [("href", target)], false⟩, closed⟩

def numberText (closed : List Tree) : OpenFrame :=
  ⟨"span", [.plain "class" "chapter-number"], none, closed⟩

theorem leads_paragraph (trees : List Tree) (rest : List Char) :
    Leads (bodyFrames trees) ("<p class=\"section-header\">".toList ++ rest)
      (paragraph [] :: bodyFrames trees) rest :=
  leads_opening ⟨"p", [("class", "section-header")], false⟩ (by decide) rfl fun c hc => by
    show (c.closeParagraphInScope.openTag _, Next.done) = _
    rw [hc.closeParagraphInScope_eq rfl]

theorem leads_paragraph_end (closed trees : List Tree) (rest : List Char) :
    Leads (paragraph closed :: bodyFrames trees) ("</p>".toList ++ rest)
      (bodyFrames (trees ++ [(paragraph closed).tree])) rest :=
  leads_closing (.bare "p") (by decide) rfl rfl fun c hc => by
    have hscope : c.hasInScopeOf endsButtonScope "p" = true :=
      hc.inScope_eq endsButtonScope (isHtmlNamed "p")
    show ((if c.hasInScopeOf endsButtonScope "p" then c else c.openBare "p").closeParagraph,
      Next.done) = _
    rw [hscope, if_pos rfl]
    exact congrArg (·, Next.done) hc.closeImpliedExcept_popThroughNamed

theorem leads_list (trees : List Tree) (rest : List Char) :
    Leads (bodyFrames trees) ("<ul class=\"chapter-list\">".toList ++ rest)
      (chapterList [] :: bodyFrames trees) rest :=
  leads_opening ⟨"ul", [("class", "chapter-list")], false⟩ (by decide) rfl fun c hc => by
    show (c.closeParagraphInScope.openTag _, Next.done) = _
    rw [hc.closeParagraphInScope_eq rfl]

theorem leads_list_end (items trees : List Tree) (rest : List Char) :
    Leads (chapterList items :: bodyFrames trees) ("</ul>".toList ++ rest)
      (bodyFrames (trees ++ [(chapterList items).tree])) rest :=
  leads_closing (.bare "ul") (by decide) rfl rfl fun c hc =>
    congrArg (·, Next.done) (hc.closeNamed_eq rfl)

theorem leads_item (items trees : List Tree) (rest : List Char) :
    Leads (chapterList items :: bodyFrames trees) ("<li>".toList ++ rest)
      (listItem [] :: chapterList items :: bodyFrames trees) rest :=
  leads_opening (.bare "li") (by decide) rfl fun c hc => by
    show ((c.closeItem ["li"]).closeParagraphInScope.openTag _, Next.done) = _
    rw [hc.closeItem_eq rfl rfl, hc.closeParagraphInScope_eq rfl]

theorem leads_item_end (closed items trees : List Tree) (rest : List Char) :
    Leads (listItem closed :: chapterList items :: bodyFrames trees) ("</li>".toList ++ rest)
      (chapterList (items ++ [(listItem closed).tree]) :: bodyFrames trees) rest :=
  leads_closing (.bare "li") (by decide) rfl rfl fun c hc => by
    have hscope : c.hasInScopeOf endsListScope "li" = true :=
      hc.inScope_eq endsListScope (isHtmlNamed "li")
    show ((if c.hasInScopeOf endsListScope "li" then
      (c.closeImpliedExcept "li").popThroughNamed "li" else c), Next.done) = _
    rw [hscope, if_pos rfl]
    exact congrArg (·, Next.done) hc.closeImpliedExcept_popThroughNamed

/-- A link is the only formatting element of the table, and it is open in its item only. -/
theorem tag?_eq_none (items trees : List Tree) :
    ∀ frame ∈ listItem [] :: chapterList items :: bodyFrames trees, frame.tag? = none := by
  simp [listItem, chapterList, bodyFrames]

theorem leads_link {target : List Char} (h : isPlain true target) (items trees : List Tree)
    (rest : List Char) :
    Leads (listItem [] :: chapterList items :: bodyFrames trees)
      ("<a href=\"".toList ++ (target ++ ("\">".toList ++ rest)))
      (chapterLink (String.ofList target) [] :: listItem [] :: chapterList items :: bodyFrames trees)
      rest :=
  leads_token (scanMarkup_link h rest) (by simp; omega) rfl fun c hc => by
    have hnone := tag?_eq_none items trees
    refine ⟨_, hc.openFormatting hnone ⟨"a", [("href", String.ofList target)], false⟩, ?_⟩
    show (c.closeOuterLink.reconstruct.openFormatting _, Next.done) = _
    rw [hc.closeOuterLink_eq hnone, hc.reconstruct_eq]

theorem leads_link_end (target : String) (closed items trees : List Tree) (rest : List Char) :
    Leads (chapterLink target closed :: listItem [] :: chapterList items :: bodyFrames trees)
      ("</a>".toList ++ rest)
      (listItem [(chapterLink target closed).tree] :: chapterList items :: bodyFrames trees) rest := by
  have hscan : scanMarkup false ("</a>".toList ++ rest) =
      ⟨some (.closing (.bare "a")), .markup, rest⟩ := rfl
  exact leads_token hscan (by simp; omega) rfl fun c hc =>
    ⟨_, hc.closeFormatting rfl rfl (tag?_eq_none items trees), rfl⟩

theorem leads_number (frame : OpenFrame) (rest : List Char) :
    Leads (frame :: frames) ("<span class=\"chapter-number\">".toList ++ rest)
      (numberText [] :: frame :: frames) rest :=
  leads_opening ⟨"span", [("class", "chapter-number")], false⟩ (by decide) rfl fun c hc => by
    show (c.reconstruct.openTag _, Next.done) = _
    rw [hc.reconstruct_eq]

theorem leads_number_end (closed : List Tree) (frame : OpenFrame) (rest : List Char) :
    Leads (numberText closed :: frame :: frames) ("</span>".toList ++ rest)
      (frame.add [(numberText closed).tree] :: frames) rest :=
  leads_closing (.bare "span") (by decide) rfl rfl fun c hc =>
    congrArg (·, Next.done) hc.closeOrdinary_eq

/-! ### A chapter -/

/-- An element adds the links inside of it when it is no link itself. -/
theorem linksIn_tree {frame : OpenFrame} (h : frame.label ≠ "a") :
    Tree.linksIn [frame.tree] = Tree.linksIn frame.closed := by
  have hlink : ¬ isElementIn frame.content "a" := by simpa [isElementIn, OpenFrame.content] using h
  rw [OpenFrame.tree, Tree.linksIn_node, Tree.linkAt, if_neg hlink]
  exact List.nil_append _


theorem IsPlain.shown (h : IsPlain chapter) {number : ChapterNumber}
    (hnumber : chapter.number = some number) : isPlain false number.shown.toList := by
  cases number with
  | ordinal n =>
    refine isPlain_of_digits fun c hc => Text.isAsciiDigit_of_mem_toDigits (n := n) ?_
    rwa [ChapterNumber.shown, show (toString n).toList = Nat.toDigits 10 n from Nat.toList_repr] at hc
  | label text => exact h.number text hnumber

/-- What stands in the link to a chapter. -/
def linkText (chapter : Chapter) : List Tree :=
  match chapter.number with
  | some number =>
    Tree.addChars [(numberText (Tree.addChars [] (number.shown.toList ++ ['.']))).tree]
      (' ' :: chapter.title.toList)
  | none => Tree.addChars [] chapter.title.toList

def linkTarget (chapter : Chapter) : String := "chapters/" ++ chapter.id ++ ".html"

/-- The item of a chapter in its list. -/
def chapterItem (chapter : Chapter) : Tree :=
  (listItem [(chapterLink (linkTarget chapter) (linkText chapter)).tree]).tree

theorem linksIn_linkText (chapter : Chapter) : Tree.linksIn (linkText chapter) = [] := by
  unfold linkText
  split
  · rw [Tree.linksIn_addChars, linksIn_tree (by simp [numberText])]
    exact Tree.linksIn_addChars [] _
  · exact Tree.linksIn_addChars [] _

theorem textOf_linkText (chapter : Chapter) :
    Tree.textOf (linkText chapter) = (expectedLink chapter).2 := by
  unfold linkText expectedLink
  cases chapter.number with
  | none => exact (Tree.textOf_addChars_nil _).trans (String.ofList_toList)
  | some number =>
    let shown := Tree.addChars [] (number.shown.toList ++ ['.'])
    have hadded : Tree.addChars [(numberText shown).tree] (' ' :: chapter.title.toList) =
        [(numberText shown).tree] ++ [.ofText (String.ofList (' ' :: chapter.title.toList))] := rfl
    have hshown : Tree.textOf [(numberText shown).tree] = String.ofList (number.shown.toList ++ ['.']) :=
      (Tree.textOf_element _ _ _).trans (Tree.textOf_addChars_nil _)
    dsimp only
    rw [hadded, Tree.textOf_append, Tree.textOf_ofText, hshown]
    apply String.toList_injective
    simp

/-- The only link in the item of a chapter is the one to be seen. -/
theorem linksIn_chapterItem (chapter : Chapter) :
    Tree.linksIn [chapterItem chapter] = [expectedLink chapter] := by
  have hlink : Tree.linksIn [(chapterLink (linkTarget chapter) (linkText chapter)).tree] =
      [(some (linkTarget chapter), Tree.textOf (linkText chapter))] ++ Tree.linksIn (linkText chapter) :=
    Tree.linksIn_node _ _
  have hitem : Tree.linksIn [chapterItem chapter] =
      Tree.linksIn [(chapterLink (linkTarget chapter) (linkText chapter)).tree] :=
    linksIn_tree (by simp [listItem])
  rw [hitem, hlink, linksIn_linkText, textOf_linkText]
  rfl

theorem leads_linkText (h : IsPlain chapter) (target : String) (frames : List OpenFrame)
    (rest : List Char) :
    Leads (chapterLink target [] :: frames)
      ((textOr numberSpan chapter.number).toList ++ (chapter.title.toList ++ '<' :: rest))
      (chapterLink target (linkText chapter) :: frames) ('<' :: rest) := by
  unfold linkText
  cases hnumber : chapter.number with
  | none => exact leads_plain h.title rest
  | some number =>
    have hshown : isPlain false (number.shown.toList ++ ['.']) := by
      rw [isPlain_append_stop (by decide), h.shown hnumber]
      rfl
    have htitle : isPlain false (' ' :: chapter.title.toList) :=
      isPlain_cons_iff.mpr ⟨by simp, h.title⟩
    have hchars : (textOr numberSpan (some number)).toList ++ (chapter.title.toList ++ '<' :: rest) =
        "<span class=\"chapter-number\">".toList ++ ((number.shown.toList ++ ['.']) ++
          ("</span>".toList ++ (' ' :: chapter.title.toList ++ '<' :: rest))) := by
      unfold textOr numberSpan
      simp only [Option.map_some, Option.getD_some, String.toList_append, List.append_assoc]
      rfl
    rw [hchars]
    exact (leads_number _ _).trans <| (leads_plain hshown _).trans <|
      (leads_number_end _ _ _).trans <| leads_plain htitle rest

theorem IsPlain.linkTarget (h : IsPlain chapter) : isPlain true (linkTarget chapter).toList := by
  have hend : isPlain true (chapter.id.toList ++ '.' :: "html".toList) := by
    rw [isPlain_append_stop (by decide), h.id]
    rfl
  rw [Page.linkTarget, String.toList_append, String.toList_append, List.append_assoc]
  exact hend

/-! ### Pieces of the table -/

/-- From inside some elements, with blank text that is still to be read, a piece of the text leads to
others. -/
structure Passes (frames : List OpenFrame) (before : List Char) (piece : String)
    (frames' : List OpenFrame) (after : List Char) : Prop where
  lines : '\r' ∉ piece.toList
  leads : ∀ rest, Leads frames (before ++ (piece.toList ++ rest)) frames' (after ++ rest)

theorem Passes.trans (h : Passes frames before piece frames' after)
    (h' : Passes frames' after more frames'' later) :
    Passes frames before (piece ++ more) frames'' later where
  lines := by
    rw [String.toList_append, List.mem_append]
    exact fun hmem => hmem.elim h.lines h'.lines
  leads rest := by
    rw [String.toList_append, List.append_assoc]
    exact (h.leads _).trans (h'.leads rest)

/-- Blank text is left to be read. -/
theorem passes_blank (frames : List OpenFrame) (before : List Char) (piece : String)
    (hlines : '\r' ∉ piece.toList) :
    Passes frames before piece frames (before ++ piece.toList) :=
  ⟨hlines, fun rest => by rw [List.append_assoc]; exact .refl _ _⟩

/-- Blank text in front of more of it. -/
theorem isPlain_append_blank (h : isPlain false before) (blank : List Char)
    (hblank : isPlain false (' ' :: blank)) : isPlain false (before ++ ' ' :: blank) := by
  rw [isPlain_append_stop (by decide), h, hblank]
  rfl

theorem toList_contentsLine (chapter : Chapter) : (contentsLine chapter).toList =
    "            ".toList ++ ("<li>".toList ++ ("<a href=\"".toList ++ ((linkTarget chapter).toList ++
      ("\">".toList ++ ((textOr numberSpan chapter.number).toList ++ (chapter.title.toList ++
        ("</a>".toList ++ ("</li>".toList ++ ['\n'])))))))) := by
  unfold contentsLine Chapter.fileName linkTarget
  simp only [String.toList_append, List.append_assoc]
  rfl

theorem not_mem_of_isPlain {inValue : Bool} {cs : List Char} (h : isPlain inValue cs) : '\r' ∉ cs :=
  fun hmem => (ne_of_mem_of_isPlain h hmem).1 rfl

theorem IsPlain.lines (h : IsPlain chapter) : '\r' ∉ (contentsLine chapter).toList := by
  have hnumber : '\r' ∉ (textOr numberSpan chapter.number).toList := by
    cases hnumber : chapter.number with
    | none => exact List.not_mem_nil
    | some number =>
      unfold textOr numberSpan
      simp only [Option.map_some, Option.getD_some, String.toList_append, List.mem_append, not_or]
      exact ⟨⟨by decide, not_mem_of_isPlain (h.shown hnumber)⟩, by decide⟩
  rw [toList_contentsLine]
  simp only [List.mem_append, not_or]
  exact ⟨by decide, by decide, by decide, not_mem_of_isPlain h.linkTarget, by decide, hnumber,
    not_mem_of_isPlain h.title, by decide, by decide, by decide⟩

/-- The line of a chapter adds its item to the list. -/
theorem passes_line (h : IsPlain chapter) (hbefore : isPlain false before) (items trees : List Tree) :
    Passes (chapterList items :: bodyFrames trees) before (contentsLine chapter)
      (chapterList (Tree.addChars items (before ++ "            ".toList) ++ [chapterItem chapter]) ::
        bodyFrames trees) ['\n'] where
  lines := h.lines
  leads rest := by
    have hblank := isPlain_append_blank hbefore "           ".toList (by decide)
    rw [toList_contentsLine]
    simp only [List.append_assoc]
    rw [← List.append_assoc]
    refine (leads_plain hblank _).trans <| (leads_item _ _ _).trans <|
      (leads_link h.linkTarget _ _ _).trans ?_
    rw [String.ofList_toList]
    exact (leads_linkText h _ _ _).trans <| (leads_link_end _ _ _ _ _).trans <| leads_item_end _ _ _ _

theorem passes_listOpening (hbefore : isPlain false before) (trees : List Tree) :
    Passes (bodyFrames trees) before listOpening
      (chapterList [] :: bodyFrames (Tree.addChars trees (before ++ "        ".toList))) ['\n'] where
  lines := by unfold listOpening; decide
  leads rest := by
    have hblank := isPlain_append_blank hbefore "       ".toList (by decide)
    have hchars : listOpening.toList ++ rest =
        "        ".toList ++ ("<ul class=\"chapter-list\">".toList ++ (['\n'] ++ rest)) := by
      unfold listOpening
      rfl
    rw [hchars, ← List.append_assoc]
    exact (leads_plain hblank _).trans (leads_list _ _)

theorem passes_listClosing (hbefore : isPlain false before) (items trees : List Tree) :
    Passes (chapterList items :: bodyFrames trees) before listClosing
      (bodyFrames (trees ++ [(chapterList (Tree.addChars items (before ++ "        ".toList))).tree]))
      ['\n'] where
  lines := by unfold listClosing; decide
  leads rest := by
    have hblank := isPlain_append_blank hbefore "       ".toList (by decide)
    have hchars : listClosing.toList ++ rest =
        "        ".toList ++ ("</ul>".toList ++ (['\n'] ++ rest)) := by
      unfold listClosing
      rfl
    rw [hchars, ← List.append_assoc]
    exact (leads_plain hblank _).trans (leads_list_end _ _ _)

theorem toList_headingLine (label : String) : (headingLine label).toList =
    "        ".toList ++ ("<p class=\"section-header\">".toList ++ (label.toList ++
      ("</p>".toList ++ ['\n']))) := by
  unfold headingLine
  simp only [String.toList_append, List.append_assoc]
  rfl

theorem isPlain_of_heading? {group : ChapterGroup} {label : String} (h : group.heading? = some label) :
    isPlain false label.toList := by
  cases group <;> simp only [ChapterGroup.heading?, Option.some_inj, reduceCtorEq] at h <;> subst h
  all_goals rfl

/-- The heading of a group adds no links. -/
theorem exists_passes_groupHeading (hbefore : isPlain false before) (group : ChapterGroup)
    (trees : List Tree) :
    ∃ trees' after, isPlain false after ∧ Tree.linksIn trees' = Tree.linksIn trees ∧
      Passes (bodyFrames trees) before (groupHeading group) (bodyFrames trees') after := by
  rw [groupHeading_eq]
  cases hheading : group.heading? with
  | none =>
    have hnothing := passes_blank (bodyFrames trees) before "" (by decide)
    exact ⟨trees, before ++ [], by simpa using hbefore, rfl, hnothing⟩
  | some label =>
    have hlabel := isPlain_of_heading? hheading
    have hblank := isPlain_append_blank hbefore "       ".toList (by decide)
    refine ⟨Tree.addChars trees (before ++ "        ".toList) ++
      [(paragraph (Tree.addChars [] label.toList)).tree], ['\n'], rfl, ?_, ?_, fun rest => ?_⟩
    · have hparagraph : Tree.linksIn [(paragraph (Tree.addChars [] label.toList)).tree] = [] :=
        (linksIn_tree (by simp [paragraph])).trans (Tree.linksIn_addChars [] _)
      rw [Tree.linksIn_append, Tree.linksIn_addChars, hparagraph, List.append_nil]
    · unfold textOr
      rw [Option.map_some, Option.getD_some, toList_headingLine]
      simp only [List.mem_append, not_or]
      exact ⟨by decide, by decide, not_mem_of_isPlain hlabel, by decide, by decide⟩
    · unfold textOr
      rw [Option.map_some, Option.getD_some, toList_headingLine]
      simp only [List.append_assoc]
      rw [← List.append_assoc]
      exact (leads_plain hblank _).trans <| (leads_paragraph _ _).trans <|
        (leads_plain hlabel _).trans <| leads_paragraph_end _ _ _

/-! ### The whole table -/

/-- Between chapters: no list is open, or the list of the given group is, and these are the links so far. -/
def Stands : Option ChapterGroup → List OpenFrame → List (Option String × String) → Prop
  | none, frames, links => ∃ trees, frames = bodyFrames trees ∧ Tree.linksIn trees = links
  | some _, frames, links => ∃ items trees, frames = chapterList items :: bodyFrames trees ∧
    Tree.linksIn trees ++ Tree.linksIn items = links

variable {current : Option ChapterGroup} {group : ChapterGroup}
  {links : List (Option String × String)}

theorem passes_nothing (frames : List OpenFrame) (before : List Char) :
    Passes frames before "" frames before := by
  simpa using passes_blank frames before "" (by decide)

/-- The list that is open ends. -/
theorem Stands.exists_passes_end (h : Stands current frames links) (hbefore : isPlain false before) :
    ∃ trees after, isPlain false after ∧ Tree.linksIn trees = links ∧
      Passes frames before (if current.isSome then listClosing else "") (bodyFrames trees) after := by
  cases current with
  | none =>
    obtain ⟨trees, rfl, hlinks⟩ := h
    exact ⟨trees, before, hbefore, hlinks, passes_nothing _ _⟩
  | some group =>
    obtain ⟨items, trees, rfl, hlinks⟩ := h
    refine ⟨_, ['\n'], rfl, ?_, passes_listClosing hbefore items trees⟩
    rw [Tree.linksIn_append, linksIn_tree (by simp [chapterList]), ← hlinks]
    exact congrArg _ (Tree.linksIn_addChars _ _)

/-- After the list before it, the list of a group begins with the heading of the group. -/
theorem exists_passes_groupStart (hbefore : isPlain false before) (group : ChapterGroup)
    (trees : List Tree) :
    ∃ frames' after, isPlain false after ∧ Stands (some group) frames' (Tree.linksIn trees) ∧
      Passes (bodyFrames trees) before (groupHeading group ++ listOpening) frames' after := by
  obtain ⟨trees', after, hafter, hlinks, hheading⟩ := exists_passes_groupHeading hbefore group trees
  refine ⟨_, ['\n'], rfl, ⟨[], _, rfl, ?_⟩, hheading.trans (passes_listOpening hafter trees')⟩
  rw [Tree.linksIn_addChars, hlinks]
  exact List.append_nil _

/-- The list of another group begins. -/
theorem Stands.exists_passes_group (h : Stands current frames links) (hbefore : isPlain false before)
    (group : ChapterGroup) :
    ∃ frames' after, isPlain false after ∧ Stands (some group) frames' links ∧
      Passes frames before (if current = some group then "" else
        (if current.isSome then listClosing ++ "\n" else "") ++ groupHeading group ++ listOpening)
        frames' after := by
  by_cases hsame : current = some group
  · rw [if_pos hsame]
    exact ⟨frames, before, hbefore, hsame ▸ h, passes_nothing _ _⟩
  · rw [if_neg hsame]
    obtain ⟨trees, after, hafter, hlinks, hend⟩ := h.exists_passes_end hbefore
    cases current with
    | none =>
      obtain ⟨frames', later, hlater, hstands, hstart⟩ := exists_passes_groupStart hafter group trees
      refine ⟨frames', later, hlater, hlinks ▸ hstands, ?_⟩
      simpa [String.append_assoc] using hend.trans hstart
    | some earlier =>
      have hblank : isPlain false (after ++ "\n".toList) := by
        rw [show "\n".toList = '\n' :: [] from rfl, isPlain_append_stop (by decide), hafter]
        rfl
      obtain ⟨frames', later, hlater, hstands, hstart⟩ := exists_passes_groupStart hblank group trees
      refine ⟨frames', later, hlater, hlinks ▸ hstands, ?_⟩
      have hline := passes_blank (bodyFrames trees) after "\n" (by decide)
      simpa [String.append_assoc] using (hend.trans hline).trans hstart

theorem Stands.exists_passes_line (h : Stands (some group) frames links) (hbefore : isPlain false before)
    (hplain : IsPlain chapter) :
    ∃ frames', Stands (some group) frames' (links ++ [expectedLink chapter]) ∧
      Passes frames before (contentsLine chapter) frames' ['\n'] := by
  obtain ⟨items, trees, rfl, hlinks⟩ := h
  refine ⟨_, ⟨_, trees, rfl, ?_⟩, passes_line hplain hbefore items trees⟩
  rw [Tree.linksIn_append, Tree.linksIn_addChars, linksIn_chapterItem, ← List.append_assoc, hlinks]

/-- The rest of the table adds a link for each of its chapters. -/
theorem Stands.exists_passes_contentsFrom (h : Stands current frames links)
    (hbefore : isPlain false before) (hplain : ∀ chapter ∈ chapters, IsPlain chapter) :
    ∃ trees after, isPlain false after ∧ Tree.linksIn trees = links ++ chapters.map expectedLink ∧
      Passes frames before (contentsFrom current chapters) (bodyFrames trees) after := by
  induction chapters generalizing current frames links before with
  | nil =>
    obtain ⟨trees, after, hafter, hlinks, hpasses⟩ := h.exists_passes_end hbefore
    refine ⟨trees, after, hafter, by simpa using hlinks, ?_⟩
    cases current <;> exact hpasses
  | cons chapter rest ih =>
    obtain ⟨hchapter, hrest⟩ := List.forall_mem_cons.mp hplain
    obtain ⟨frames', after, hafter, hstands, hgroup⟩ := h.exists_passes_group hbefore chapter.group
    obtain ⟨frames'', hstands', hentry⟩ := hstands.exists_passes_line hafter hchapter
    have hline : isPlain false ['\n'] := rfl
    obtain ⟨trees, later, hlater, hlinks, hothers⟩ := ih hstands' hline hrest
    refine ⟨trees, later, hlater, by simpa using hlinks, ?_⟩
    rw [contentsFrom]
    exact (hgroup.trans hentry).trans hothers

/-- The table of contents shows every chapter intact when what the manifest says of the chapters is plain
text: there is one link for each chapter, in their order. -/
theorem shownLinks_tableOfContents (manifest : Manifest)
    (hplain : ∀ chapter ∈ manifest.chapters, IsPlain chapter) :
    (Fragment.parse (tableOfContents manifest)).shownLinks = manifest.chapters.map expectedLink := by
  have hstart : Stands none (bodyFrames []) [] := ⟨[], rfl, rfl⟩
  have hnothing : isPlain false [] := rfl
  obtain ⟨trees, after, hafter, hlinks, hpasses⟩ := hstart.exists_passes_contentsFrom hnothing hplain
  have hread : Leads (bodyFrames [])
      ((contentsFrom none manifest.chapters).toList ++ "</body></html>".toList)
      (bodyFrames (Tree.addChars trees after)) "</body></html>".toList :=
    (hpasses.leads _).trans (leads_plain hafter _)
  have hforest := forest_parse hpasses.lines hread
  rw [tableOfContents, (Fragment.wellFormed_parse _).shownLinks_eq, hforest, Tree.linksIn_addChars, hlinks]
  exact List.nil_append _

/-- A comparison in a title stays what it is. -/
theorem shownLinks_of_comparison :
    (∀ chapter ∈ [(⟨"a", some (.ordinal 1), "p < q & r", none, .chapters⟩ : Chapter),
      ⟨"b", some (.label "A"), "Proofs", none, .appendix⟩], IsPlain chapter) ∧
    (Fragment.parse (tableOfContents ⟨[⟨"a", some (.ordinal 1), "p < q & r", none, .chapters⟩,
      ⟨"b", some (.label "A"), "Proofs", none, .appendix⟩]⟩)).shownLinks =
      [(some "chapters/a.html", "1. p < q & r"), (some "chapters/b.html", "A. Proofs")] := by
  have hplain : ∀ chapter ∈ [(⟨"a", some (.ordinal 1), "p < q & r", none, .chapters⟩ : Chapter),
      ⟨"b", some (.label "A"), "Proofs", none, .appendix⟩], IsPlain chapter := by
    simp only [List.forall_mem_cons, List.not_mem_nil, false_implies, implies_true, and_true]
    refine ⟨⟨by decide +kernel, nofun, by decide +kernel⟩, by decide +kernel, ?_, by decide +kernel⟩
    rintro label ⟨⟩
    decide +kernel
  exact ⟨hplain, shownLinks_tableOfContents ⟨_⟩ hplain⟩

/-- The chapter is the only one of an accepted manifest, and is not shown as the manifest has it. -/
def Misshown (chapter : Chapter) : Prop :=
  Manifest.repeatedId? [] [chapter] = none ∧
    (Fragment.parse (tableOfContents ⟨[chapter]⟩)).shownLinks ≠ [expectedLink chapter]

/-- What keeps a chapter from being shown: in its title a tag, a character reference, an end of line or a
character that is left out, a tag in its number, and a quote or a reference in its identifier. -/
theorem misshown_in_each_way :
    Misshown ⟨"a", none, "p<q", none, .other⟩ ∧
    Misshown ⟨"a", none, "p &lt; q", none, .other⟩ ∧
    Misshown ⟨"a", none, "p\rq", none, .other⟩ ∧
    Misshown ⟨"a", none, "p\x00q", none, .other⟩ ∧
    Misshown ⟨"a", some (.label "A<br>"), "p", none, .other⟩ ∧
    Misshown ⟨"a\"", none, "p", none, .other⟩ ∧
    Misshown ⟨"a&lt;", none, "p", none, .other⟩ := by
  unfold Misshown
  refine ⟨?_, ?_, ?_, ?_, ?_, ?_, ?_⟩ <;> decide +kernel

end Page
end CrossRef
