import CrossRef.Page
import Mathlib.Data.List.Chain

/-!
The lists of the table of contents. Chapters that follow each other in one group stand in one list, under
the heading of the group.
-/
namespace CrossRef
namespace Page

variable {chapters rest : List Chapter} {group : ChapterGroup} {run : ChapterGroup × List Chapter}
  {runs : List (ChapterGroup × List Chapter)}

/-! ### Runs of chapters -/

/-- The chapters cut into runs of one group each, which are as long as they can be. -/
structure MaximalRuns (chapters : List Chapter) (runs : List (ChapterGroup × List Chapter)) : Prop where
  flatten : runs.flatMap (·.2) = chapters
  ne_nil : ∀ run ∈ runs, run.2 ≠ []
  group : ∀ run ∈ runs, ∀ chapter ∈ run.2, chapter.group = run.1
  maximal : runs.IsChain (·.1 ≠ ·.1)

/-- Put a chapter in front of what is cut into runs. -/
def addToRuns (chapter : Chapter) :
    List (ChapterGroup × List Chapter) → List (ChapterGroup × List Chapter)
  | [] => [(chapter.group, [chapter])]
  | run :: runs =>
    if chapter.group = run.1 then (run.1, chapter :: run.2) :: runs
    else (chapter.group, [chapter]) :: run :: runs

def runsOf : List Chapter → List (ChapterGroup × List Chapter)
  | [] => []
  | chapter :: rest => addToRuns chapter (runsOf rest)

theorem MaximalRuns.addToRuns (h : MaximalRuns rest runs) (chapter : Chapter) :
    MaximalRuns (chapter :: rest) (addToRuns chapter runs) := by
  cases runs with
  | nil =>
    obtain rfl : rest = [] := h.flatten.symm
    exact ⟨by simp [Page.addToRuns], by simp [Page.addToRuns], by simp [Page.addToRuns],
      List.isChain_singleton _⟩
  | cons run runs =>
    rw [Page.addToRuns]
    split_ifs with hgroup
    · refine ⟨by simp [← h.flatten], ?_, ?_, ?_⟩
      · rw [List.forall_mem_cons]
        exact ⟨List.cons_ne_nil _ _, fun r hr => h.ne_nil r (List.mem_cons_of_mem run hr)⟩
      · rw [List.forall_mem_cons, List.forall_mem_cons]
        exact ⟨⟨hgroup, h.group run List.mem_cons_self⟩,
          fun r hr => h.group r (List.mem_cons_of_mem run hr)⟩
      · exact List.isChain_cons.mpr (List.isChain_cons.mp h.maximal)
    · refine ⟨by simp [← h.flatten], ?_, ?_, h.maximal.cons_cons hgroup⟩
      · exact List.forall_mem_cons.mpr ⟨List.cons_ne_nil _ _, h.ne_nil⟩
      · exact List.forall_mem_cons.mpr ⟨by simp, h.group⟩

theorem maximalRuns_runsOf (chapters : List Chapter) : MaximalRuns chapters (runsOf chapters) := by
  induction chapters with
  | nil => exact ⟨rfl, by simp [runsOf], by simp [runsOf], .nil⟩
  | cons chapter rest ih => exact ih.addToRuns chapter

/-- The runs after the first are the longest runs of the chapters after it. -/
theorem MaximalRuns.tail (h : MaximalRuns chapters (run :: runs)) :
    MaximalRuns (runs.flatMap (·.2)) runs :=
  ⟨rfl, fun r hr => h.ne_nil r (List.mem_cons_of_mem run hr),
    fun r hr => h.group r (List.mem_cons_of_mem run hr), h.maximal.tail⟩

/-- There is only one way to cut chapters into runs that cannot be longer. -/
theorem MaximalRuns.eq_runsOf (h : MaximalRuns chapters runs) : runs = runsOf chapters := by
  induction chapters generalizing runs with
  | nil =>
    cases runs with
    | nil => rfl
    | cons run runs =>
      have hnil : run.2 = [] := (List.append_eq_nil_iff.mp h.flatten).1
      exact absurd hnil (h.ne_nil run List.mem_cons_self)
  | cons chapter rest ih =>
    cases runs with
    | nil => exact absurd h.flatten (List.cons_ne_nil _ _).symm
    | cons run runs =>
      obtain ⟨group, others⟩ := run
      obtain ⟨first, more, rfl⟩ := List.exists_cons_of_ne_nil (h.ne_nil _ List.mem_cons_self)
      obtain ⟨rfl, rfl⟩ := List.cons_eq_cons.mp h.flatten
      have hgroup := List.forall_mem_cons.mp h.group
      obtain rfl : first.group = group := hgroup.1 first List.mem_cons_self
      cases more with
      | nil =>
        have hlater := ih h.tail
        rw [runsOf, ← hlater]
        match runs, h.maximal with
        | [], _ => rfl
        | next :: runs, hmaximal =>
          rw [Page.addToRuns, if_neg (List.isChain_cons_cons.mp hmaximal).1]
      | cons second more =>
        have hshorter : MaximalRuns (second :: more ++ runs.flatMap (·.2))
            ((first.group, second :: more) :: runs) := by
          refine ⟨rfl, ?_, ?_, ?_⟩
          · exact List.forall_mem_cons.mpr ⟨List.cons_ne_nil _ _, h.tail.ne_nil⟩
          · exact List.forall_mem_cons.mpr
              ⟨fun c hc => hgroup.1 c (List.mem_cons_of_mem first hc), h.tail.group⟩
          · exact List.isChain_cons.mpr (List.isChain_cons.mp h.maximal)
        rw [runsOf, ← ih hshorter, Page.addToRuns, if_pos rfl]

/-! ### What the table is made of -/

inductive ContentsPart
  | heading (label : String)
  | opening
  | entry (chapter : Chapter)
  | closing
  | gap
  deriving DecidableEq, Repr

def headingLine (label : String) : String :=
  "        <p class=\"section-header\">" ++ label ++ "</p>\n"

namespace ContentsPart

def text : ContentsPart → String
  | heading label => headingLine label
  | opening => listOpening
  | entry chapter => contentsLine chapter
  | closing => listClosing
  | gap => "\n"

/-- The chapter that a part lists. -/
def chapter? : ContentsPart → Option Chapter
  | entry chapter => some chapter
  | _ => none

/-- Whether a list is open after the part. Chapters stand in a list, and a list that is open is closed
before anything else comes. -/
def next? : Bool → ContentsPart → Option Bool
  | false, heading _ => some false
  | false, opening => some true
  | true, entry _ => some true
  | true, closing => some false
  | false, gap => some false
  | _, _ => none

end ContentsPart

open ContentsPart

/-- A run of chapters: the heading of its group, if the group has one, and a list of the chapters. -/
def runParts (run : ChapterGroup × List Chapter) : List ContentsPart :=
  run.1.heading?.toList.map heading ++ opening :: run.2.map entry ++ [closing]

/-- The runs with a gap between each two. -/
def contentsParts (runs : List (ChapterGroup × List Chapter)) : List ContentsPart :=
  [gap].intercalate (runs.map runParts)

theorem contentsParts_singleton (run : ChapterGroup × List Chapter) :
    contentsParts [run] = runParts run := by
  simp [contentsParts]

theorem contentsParts_cons_cons (first second : ChapterGroup × List Chapter) :
    contentsParts (first :: second :: runs) =
      runParts first ++ gap :: contentsParts (second :: runs) := by
  simp [contentsParts, List.intercalate_cons_cons]

def textOfParts (parts : List ContentsPart) : String := String.join (parts.map text)

@[simp]
theorem textOfParts_nil : textOfParts [] = "" := rfl

theorem textOfParts_append (parts more : List ContentsPart) :
    textOfParts (parts ++ more) = textOfParts parts ++ textOfParts more := by
  simp [textOfParts, String.join_append]

theorem textOfParts_cons (part : ContentsPart) (parts : List ContentsPart) :
    textOfParts (part :: parts) = part.text ++ textOfParts parts := by
  simp [textOfParts]

theorem groupHeading_eq (group : ChapterGroup) :
    groupHeading group = textOr headingLine group.heading? := by
  unfold groupHeading
  cases group <;> exact rfl

theorem groupHeading_eq_textOfParts (group : ChapterGroup) :
    groupHeading group = textOfParts (group.heading?.toList.map heading) := by
  rw [groupHeading_eq]
  cases group.heading? <;> simp [textOr, textOfParts, text]

/-! ### The table as it is written -/

/-- The chapters of the group that is open stand on their lines. -/
theorem contentsFrom_append (hgroup : ∀ chapter ∈ chapters, chapter.group = group) :
    contentsFrom (some group) (chapters ++ rest) =
      textOfParts (chapters.map entry) ++ contentsFrom (some group) rest := by
  induction chapters with
  | nil => simp [textOfParts]
  | cons chapter chapters ih =>
    obtain ⟨hfirst, hothers⟩ := List.forall_mem_cons.mp hgroup
    rw [List.cons_append, contentsFrom, hfirst, if_pos rfl, ih hothers, List.map_cons, textOfParts_cons,
      String.empty_append, String.append_assoc, text]

/-- What the first chapter of another group ends and opens. -/
theorem contentsFrom_run {current : Option ChapterGroup} (hcurrent : current ≠ some run.1)
    (hne : run.2 ≠ []) (hgroup : ∀ chapter ∈ run.2, chapter.group = run.1) :
    contentsFrom current (run.2 ++ rest) =
      (if current.isSome then listClosing ++ "\n" else "") ++
        textOfParts (run.1.heading?.toList.map heading ++ opening :: run.2.map entry) ++
        contentsFrom (some run.1) rest := by
  obtain ⟨group, chapters⟩ := run
  obtain ⟨chapter, chapters, rfl⟩ := List.exists_cons_of_ne_nil hne
  obtain ⟨hfirst, hothers⟩ := List.forall_mem_cons.mp hgroup
  have hline : contentsFrom (some group) (chapters ++ rest) =
      textOfParts (chapters.map entry) ++ contentsFrom (some group) rest := contentsFrom_append hothers
  dsimp only at hfirst hcurrent hline ⊢
  subst hfirst
  have hopening : opening.text = listOpening := by rw [text]
  have hentry : (entry chapter).text = contentsLine chapter := by rw [text]
  rw [List.cons_append, contentsFrom, if_neg hcurrent, hline, groupHeading_eq_textOfParts,
    textOfParts_append, textOfParts_cons, List.map_cons, textOfParts_cons, hopening, hentry]
  simp only [String.append_assoc]

theorem contentsFrom_runs (h : MaximalRuns chapters (run :: runs)) {current : Option ChapterGroup}
    (hcurrent : current ≠ some run.1) :
    contentsFrom current chapters =
      (if current.isSome then listClosing ++ "\n" else "") ++
        textOfParts (contentsParts (run :: runs)) := by
  have hne := h.ne_nil run List.mem_cons_self
  have hgroup := h.group run List.mem_cons_self
  induction runs generalizing run chapters current with
  | nil =>
    obtain rfl : run.2 ++ [] = chapters := by simpa using h.flatten
    rw [contentsFrom_run hcurrent hne hgroup, contentsFrom, contentsParts_singleton, runParts,
      textOfParts_append _ [closing], textOfParts_cons closing, textOfParts_nil, String.append_empty,
      String.append_assoc, text]
  | cons next runs ih =>
    have hnext : some run.1 ≠ some next.1 := by
      simpa using (List.isChain_cons_cons.mp h.maximal).1
    have hrest := ih h.tail hnext (h.ne_nil next (by simp)) (h.group next (by simp))
    obtain rfl : run.2 ++ (next :: runs).flatMap (·.2) = chapters := h.flatten
    rw [contentsFrom_run hcurrent hne hgroup, hrest, Option.isSome_some, if_pos rfl,
      contentsParts_cons_cons, runParts, List.append_assoc, textOfParts_append _ ([closing] ++ _),
      List.singleton_append, textOfParts_cons closing, textOfParts_cons gap]
    simp only [text, String.append_assoc]

/-! ### What every table holds -/

theorem chapters_runParts (run : ChapterGroup × List Chapter) :
    (runParts run).filterMap chapter? = run.2 := by
  have hentries : (run.2.map entry).filterMap chapter? = run.2 := by
    simp [List.filterMap_map, Function.comp_def, chapter?]
  have hheading : (run.1.heading?.toList.map heading).filterMap chapter? = [] := by
    simp [List.filterMap_map, Function.comp_def, chapter?]
  simp [runParts, List.filterMap_append, List.filterMap_cons, hentries, hheading, chapter?]

theorem chapters_contentsParts (runs : List (ChapterGroup × List Chapter)) :
    (contentsParts runs).filterMap chapter? = runs.flatMap (·.2) := by
  induction runs with
  | nil => rfl
  | cons run runs ih =>
    cases runs with
    | nil => simp [contentsParts_singleton, chapters_runParts]
    | cons next runs =>
      rw [contentsParts_cons_cons, List.filterMap_append, chapters_runParts, List.filterMap_cons_none rfl,
        ih, ← List.flatMap_cons]

theorem next_entries (chapters : List Chapter) : (chapters.map entry).foldlM next? true = some true := by
  induction chapters with
  | nil => rfl
  | cons chapter chapters ih => simpa [next?] using ih

/-- A run opens one list and closes it. -/
theorem next_runParts (run : ChapterGroup × List Chapter) :
    (runParts run).foldlM next? false = some false := by
  have hheading : (run.1.heading?.toList.map heading).foldlM next? false = some false := by
    cases run.1.heading? <;> rfl
  simp [runParts, List.foldlM_append, hheading, next_entries, next?]

theorem next_contentsParts (runs : List (ChapterGroup × List Chapter)) :
    (contentsParts runs).foldlM next? false = some false := by
  induction runs with
  | nil => rfl
  | cons run runs ih =>
    cases runs with
    | nil => rw [contentsParts_singleton, next_runParts]
    | cons next runs =>
      simpa [contentsParts_cons_cons, List.foldlM_append, next_runParts, next?] using ih

end Page
end CrossRef
