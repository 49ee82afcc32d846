import CrossRef.Proofs.Files.Place

/-!
What directories hold. A name that is joined to the path of a directory leads to the entry that the
directory holds under it, and to nothing when there is no such directory.
-/
namespace CrossRef

namespace FileTree

open Text

variable {tree : FileTree} {directory : Path} {name : String}

/-- What stands in a directory under a name. -/
def entryIn? (tree : FileTree) (directory : Path) (name : String) : Option Entry :=
  match tree.at? directory with
  | .ok .directory => tree.find? (tree.place directory ++ [name.toList])
  | _ => none

/-- Can an entry have this name? -/
def isName (name : String) : Bool :=
  !name.toList.contains '/' && !name.toList.contains '\x00' && !Path.isIdle name.toList &&
    name.toList ≠ ['.', '.'] && !isTooLong name.toList

theorem isName_iff :
    isName name = true ↔ '/' ∉ name.toList ∧ '\x00' ∉ name.toList ∧
      Path.isIdle name.toList = false ∧ name.toList ≠ ['.', '.'] ∧ isTooLong name.toList = false := by
  simp [isName, and_assoc]

theorem step_of_isName (h : isName name = true) (location : Location) :
    step location name.toList = location ++ [name.toList] := by
  obtain ⟨-, -, hidle, hup, -⟩ := isName_iff.mp h
  rw [step, if_neg (by simp [hidle]), if_neg hup]

/-- One more piece leads on from a directory. -/
theorem follow_concat_eq_ok_iff {start reached : Location} {pieces : List (List Char)}
    {piece : List Char} :
    tree.follow start (pieces ++ [piece]) = .ok reached ↔
      ∃ location, tree.follow start pieces = .ok location ∧
        tree.find? location = some .directory ∧ isTooLong piece = false ∧
        reached = step location piece := by
  induction pieces generalizing start with
  | nil =>
    rw [List.nil_append, follow]
    cases hfind : tree.find? start with
    | none => simp [follow, hfind]
    | some entry =>
      cases entry with
      | file content => simp [follow, hfind]
      | directory =>
        by_cases hlong : isTooLong piece = true <;> simp [follow, hfind, hlong, eq_comm]
  | cons first rest ih =>
    rw [List.cons_append, follow, follow]
    split
    · split_ifs
      · simp
      · exact ih
    · simp
    · simp

theorem isAbsolute_of_isName (h : isName name = true) : Path.isAbsolute ⟨name⟩ = false := by
  obtain ⟨hslash, -⟩ := isName_iff.mp h
  rw [Bool.eq_false_iff]
  intro habsolute
  obtain ⟨rest, hrest⟩ := Path.isAbsolute_iff.mp habsolute
  exact hslash (hrest ▸ List.mem_cons_self)

theorem locate_eq_ok_iff {p : Path} {location : Location} (h : p.isAbsolute = true) :
    tree.locate p = .ok location ↔
      '\x00' ∉ p.text.toList ∧ tree.follow [] (cutAt '/' p.text.toList) = .ok location := by
  have hempty := Path.isEmpty_of_isAbsolute h
  rw [locate, if_neg (by simp [hempty]), origin, if_pos h]
  split_ifs with hnul
  · simpa using fun hfree => absurd (by simpa using hnul) hfree
  · simpa using fun _ => by simpa using hnul

section Slash

variable {chars : List Char} (hdirectory : directory.isAbsolute = true)
  (hchars : directory.text.toList = chars ∨ directory.text.toList = chars ++ ['/'])

include hdirectory hchars

theorem place_eq_foldl (tree : FileTree) : tree.place directory = (cutAt '/' chars).foldl step [] := by
  rw [place_of_toList hchars, if_pos hdirectory]

theorem at?_eq_directory_iff :
    tree.at? directory = .ok .directory ↔ '\x00' ∉ chars ∧ ∃ reached,
      tree.follow [] (cutAt '/' chars) = .ok reached ∧ tree.find? reached = some .directory := by
  have hplace := place_eq_foldl hdirectory hchars tree
  rw [at?_eq_ok_iff, locate_eq_ok_iff hdirectory]
  rcases hchars with h | h
  · rw [h]
    constructor
    · rintro ⟨⟨hnul, hfollow⟩, hfind⟩
      exact ⟨hnul, _, hfollow, hfind⟩
    · rintro ⟨hnul, reached, hfollow, hfind⟩
      obtain rfl : reached = tree.place directory := (eq_foldl_of_follow hfollow).trans hplace.symm
      exact ⟨⟨hnul, hfollow⟩, hfind⟩
  · have hpieces : cutAt '/' (chars ++ ['/']) = cutAt '/' chars ++ [[]] := cutAt_append '/' chars []
    rw [h, hpieces, follow_concat_eq_ok_iff]
    constructor
    · rintro ⟨⟨hnul, reached, hfollow, hfind, -⟩, -⟩
      exact ⟨by simpa using hnul, reached, hfollow, hfind⟩
    · rintro ⟨hnul, reached, hfollow, hfind⟩
      obtain rfl : reached = tree.place directory := (eq_foldl_of_follow hfollow).trans hplace.symm
      exact ⟨⟨by simpa using hnul, _, hfollow, hfind, rfl, (step_nil _).symm⟩, hfind⟩

end Slash

/-- A name that is joined to a path leads on if the path leads to a directory, and nowhere else. -/
theorem locate_join_iff {location : Location} (hdirectory : directory.isAbsolute = true)
    (hname : isName name = true) :
    tree.locate (directory.join name) = .ok location ↔
      tree.at? directory = .ok .directory ∧ location = tree.place directory ++ [name.toList] := by
  obtain ⟨hslash, hnul, -, -, hshort⟩ := isName_iff.mp hname
  obtain ⟨chars, hjoin, hchars⟩ := Path.exists_join directory (isAbsolute_of_isName hname)
    (by simpa using Path.isEmpty_of_isAbsolute hdirectory)
  have hpieces : cutAt '/' (directory.join name).text.toList = cutAt '/' chars ++ [name.toList] := by
    rw [hjoin, cutAt_append, cutAt_of_not_mem hslash]
  have hplace := place_eq_foldl hdirectory hchars tree
  rw [locate_eq_ok_iff (Path.isAbsolute_join hdirectory name), hpieces, follow_concat_eq_ok_iff,
    at?_eq_directory_iff hdirectory hchars, hjoin]
  constructor
  · rintro ⟨hfree, reached, hfollow, hfind, -, rfl⟩
    obtain rfl : reached = tree.place directory := (eq_foldl_of_follow hfollow).trans hplace.symm
    exact ⟨⟨fun hmem => hfree (List.mem_append_left _ hmem), _, hfollow, hfind⟩,
      step_of_isName hname _⟩
  · rintro ⟨⟨hfree, reached, hfollow, hfind⟩, rfl⟩
    obtain rfl : reached = tree.place directory := (eq_foldl_of_follow hfollow).trans hplace.symm
    refine ⟨?_, _, hfollow, hfind, hshort, (step_of_isName hname _).symm⟩
    simp [hfree, hnul]

/-- What a name leads to, joined to a path, is what the directory there holds under the name. -/
theorem kind?_join (hdirectory : directory.isAbsolute = true) (hname : isName name = true) :
    tree.kind? (directory.join name) = (tree.entryIn? directory name).map Entry.kind := by
  rw [entryIn?]
  split
  · next hat =>
    rw [kind?, at?, (locate_join_iff hdirectory hname).mpr ⟨hat, rfl⟩]
    simp only
    cases tree.find? (tree.place directory ++ [name.toList]) <;> rfl
  · next hat =>
    rw [kind?, at?]
    cases hjoin : tree.locate (directory.join name) with
    | error fault => rfl
    | ok location => exact absurd ((locate_join_iff hdirectory hname).mp hjoin).1 hat

end FileTree
end CrossRef
