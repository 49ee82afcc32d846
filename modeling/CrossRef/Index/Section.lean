import CrossRef.Manifest.Basic
import CrossRef.Markup.Fragment
import CrossRef.Text.Blank

/-!
Sections: the numbered headings of a chapter, each under the identifiers that it is known by.
-/
namespace CrossRef
namespace Index

open Markup

/-- One heading of a chapter. -/
structure SectionEntry where
  /-- The identifiers that lead to this heading. -/
  identifiers : List String
  text : String
  level : Nat
  chapterId : String
  chapterTitle : String
  /-- The place in the chapter, as numbers with points between them. -/
  number : String
  deriving DecidableEq, Repr, Inhabited

/-- The identifiers of headings in order, each with the position of its heading. -/
def positionsOf (headings : List SectionEntry) : List (String × Nat) :=
  headings.zipIdx.flatMap fun (entry, position) =>
    entry.identifiers.map fun identifier => (identifier, position)

theorem positionsOf_concat (headings : List SectionEntry) (entry : SectionEntry) :
    positionsOf (headings ++ [entry]) =
      positionsOf headings ++ entry.identifiers.map fun i => (i, headings.length) := by
  simp [positionsOf, List.zipIdx_append]

theorem fst_positionsOf (headings : List SectionEntry) :
    (positionsOf headings).map Prod.fst = headings.flatMap (·.identifiers) := by
  have hlist : ∀ start, ((headings.zipIdx start).flatMap fun (entry, position) =>
      entry.identifiers.map fun i => (i, position)).map Prod.fst =
        headings.flatMap (·.identifiers) := by
    induction headings with
    | nil => exact fun _ => rfl
    | cons entry rest ih =>
      intro start
      rw [List.zipIdx_cons, List.flatMap_cons, List.map_append, ih, List.flatMap_cons, List.map_map]
      exact congrArg (· ++ _) (List.map_id _)
  exact hlist 0

theorem lookup_map_const (identifiers : List String) (position : Nat) (identifier : String) :
    (identifiers.map fun i => (i, position)).lookup identifier =
      if identifiers.contains identifier then some position else none := by
  induction identifiers with
  | nil => rfl
  | cons first rest ih =>
    by_cases h : identifier = first
    · subst h
      simp
    · simp [List.lookup_cons, h, ih, beq_false_of_ne h]

/-- The position of an identifier is the one of the first heading that lists it. -/
theorem lookup_positions (before later : List SectionEntry) (identifier : String) :
    (((later.zipIdx before.length).flatMap fun (entry, position) =>
        entry.identifiers.map fun i => (i, position)).lookup identifier).bind
          ((before ++ later)[·]?) =
      later.find? fun entry => entry.identifiers.contains identifier := by
  induction later generalizing before with
  | nil => rfl
  | cons entry rest ih =>
    have hrest := ih (before ++ [entry])
    rw [List.length_append, List.length_singleton, List.append_assoc, List.singleton_append] at hrest
    rw [List.zipIdx_cons, List.flatMap_cons, List.lookup_append, lookup_map_const, List.find?_cons]
    cases hentry : entry.identifiers.contains identifier with
    | true => simp
    | false => simpa using hrest

/-- Those identifiers that are not taken, each where it comes first. -/
def untaken (taken : List String) : List String → List String
  | [] => []
  | identifier :: rest =>
    if taken.contains identifier then untaken taken rest
    else identifier :: untaken (taken ++ [identifier]) rest

theorem mem_untaken {taken identifiers : List String} {identifier : String} :
    identifier ∈ untaken taken identifiers ↔ identifier ∈ identifiers ∧ identifier ∉ taken := by
  induction identifiers generalizing taken with
  | nil => simp [untaken]
  | cons first rest ih =>
    by_cases hfirst : first ∈ taken
    · simp only [untaken, List.contains_iff_mem, hfirst, if_true, ih, List.mem_cons]
      grind
    · simp only [untaken, List.contains_iff_mem, hfirst, if_false, ih, List.mem_cons]
      grind

theorem nodup_untaken (taken identifiers : List String) : (untaken taken identifiers).Nodup := by
  induction identifiers generalizing taken with
  | nil => exact .nil
  | cons first rest ih =>
    rw [untaken]
    split
    · exact ih taken
    · exact List.nodup_cons.mpr ⟨fun h => (mem_untaken.mp h).2 (by simp), ih _⟩

/-- The registered headings of a chapter in document order. A heading is there once, and each of its
identifiers leads to its position. No identifier has two headings. -/
structure ChapterSections where
  headings : List SectionEntry
  /-- The identifiers that are taken, each with the position of the heading that it leads to. -/
  positions : List (String × Nat)
  positions_eq : positions = positionsOf headings
  nodup_identifiers : (positions.map Prod.fst).Nodup
  deriving DecidableEq, Repr

namespace ChapterSections

def empty : ChapterSections := ⟨[], [], rfl, .nil⟩

instance : Inhabited ChapterSections := ⟨empty⟩

/-- The heading that an identifier leads to. -/
def get? (sections : ChapterSections) (identifier : String) : Option SectionEntry :=
  (sections.positions.lookup identifier).bind fun position => sections.headings[position]?

theorem get?_eq_find? (sections : ChapterSections) (identifier : String) :
    sections.get? identifier =
      sections.headings.find? fun entry => entry.identifiers.contains identifier := by
  rw [get?, sections.positions_eq]
  exact lookup_positions [] sections.headings identifier

theorem mem_of_get? {sections : ChapterSections} {identifier : String} {entry : SectionEntry}
    (h : sections.get? identifier = some entry) :
    entry ∈ sections.headings ∧ identifier ∈ entry.identifiers := by
  rw [get?_eq_find?] at h
  exact ⟨List.mem_of_find?_eq_some h, by simpa using List.find?_some h⟩

def identifiers (sections : ChapterSections) : List String := sections.positions.map Prod.fst

theorem identifiers_eq (sections : ChapterSections) :
    sections.identifiers = sections.headings.flatMap (·.identifiers) := by
  rw [identifiers, sections.positions_eq, fst_positionsOf]

def identifierCount (sections : ChapterSections) : Nat := sections.positions.length

/-- Add a heading under those of its identifiers that are not taken yet, if there are any. -/
def register (sections : ChapterSections) (entry : SectionEntry) : ChapterSections :=
  let kept := untaken sections.identifiers entry.identifiers
  { headings :=
      if kept = [] then sections.headings
      else sections.headings ++ [{ entry with identifiers := kept }]
    positions := sections.positions ++ kept.map fun i => (i, sections.headings.length)
    positions_eq := by
      rw [sections.positions_eq]
      split
      · next hnone => simp [hnone]
      · rw [positionsOf_concat]
    nodup_identifiers := by
      have hkept : (kept.map fun i => (i, sections.headings.length)).map Prod.fst = kept := by
        rw [List.map_map]
        exact List.map_id kept
      rw [List.map_append, hkept, List.nodup_append]
      refine ⟨sections.nodup_identifiers, nodup_untaken _ _, ?_⟩
      rintro identifier htaken other hnew rfl
      exact (mem_untaken.mp hnew).2 htaken }

end ChapterSections

/-- How many headings of each level were counted since the last one above it. -/
structure SectionCounter where
  second : Nat
  third : Nat
  fourth : Nat
  deriving DecidableEq, Repr, Inhabited

namespace SectionCounter

def zero : SectionCounter := ⟨0, 0, 0⟩

/-- The counter after a heading of this level, and the number of the heading as a list. -/
def advance (counter : SectionCounter) (level : Nat) : SectionCounter × Option (List Nat) :=
  match level with
  | 2 =>
    let c : SectionCounter := ⟨counter.second + 1, 0, 0⟩
    (c, some [c.second])
  | 3 =>
    let c : SectionCounter := ⟨counter.second, counter.third + 1, 0⟩
    (c, some [c.second, c.third])
  | 4 =>
    let c : SectionCounter := ⟨counter.second, counter.third, counter.fourth + 1⟩
    (c, some [c.second, c.third, c.fourth])
  | _ => (counter, none)

/-- The numbers of a sequence of headings, from a counter on. -/
def numbersFrom (counter : SectionCounter) : List Nat → List (Option (List Nat))
  | [] => []
  | level :: rest =>
    let (counter, number) := counter.advance level
    number :: numbersFrom counter rest

@[simp] theorem length_numbersFrom (counter : SectionCounter) (levels : List Nat) :
    (counter.numbersFrom levels).length = levels.length := by
  induction levels generalizing counter with
  | nil => rfl
  | cons level rest ih => simp [numbersFrom, ih]

end SectionCounter

/-- A section number as it is shown. -/
def dotted (number : List Nat) : String := ".".intercalate (number.map toString)

/-- The level of a heading that is numbered. -/
def headingLevel? (dom : Dom) (node : NodeId) : Option Nat :=
  match (dom.name? (some node)).map (·.label) with
  | some "h2" => some 2
  | some "h3" => some 3
  | some "h4" => some 4
  | _ => none

/-- Add a text to a list, unless it is empty or there already. -/
def addIdentifier (identifiers : List String) (value : String) : List String :=
  if value = "" || identifiers.contains value then identifiers else identifiers ++ [value]

/-- The identifiers of a heading: the values of the attributes whose names start with `id`. -/
def headingIdentifiers (dom : Dom) (node : NodeId) : List String :=
  (((dom.attributes (some node)).filter fun a => "id".toList.isPrefixOf a.name.label.toList).map
    fun a => Text.trim a.value).foldl addIdentifier []

/-- Take the next node of a chapter into the index of its sections. -/
def indexNode (chapter : Chapter) (dom : Dom) (state : SectionCounter × ChapterSections)
    (node : NodeId) : SectionCounter × ChapterSections :=
  match headingLevel? dom node with
  | none => state
  | some level =>
    match state.1.advance level with
    | (counter, none) => (counter, state.2)
    | (counter, some number) =>
      (counter, state.2.register
        { identifiers := headingIdentifiers dom node
          text := Text.trim (dom.textOf (some node))
          level := level
          chapterId := chapter.id
          chapterTitle := chapter.title
          number := dotted number })

/-- The sections of a chapter. Headings without identifiers count, but nothing leads to them. -/
def sectionsOf (chapter : Chapter) (f : Fragment) : ChapterSections :=
  ((f.dom.descendants (some f.root)).foldl (indexNode chapter f.dom) (.zero, .empty)).2

end Index
end CrossRef
