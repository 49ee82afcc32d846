import CrossRef.Files.Basic

/-!
Trees of files as values. An entry is found by the names that lead to it from the root; a path is
followed name by name, so that going up again from a directory that does not exist fails.
-/
namespace CrossRef

/-- The names that lead to an entry from the root. -/
abbrev Location := List (List Char)

inductive Entry
  | file (content : ByteArray)
  | directory
  deriving Inhabited

instance : DecidableEq Entry
  | .file a, .file b =>
    decidable_of_iff (a.data = b.data)
      ⟨fun h => congrArg Entry.file (ByteArray.ext h),
        fun h => congrArg ByteArray.data (Entry.file.inj h)⟩
  | .directory, .directory => .isTrue rfl
  | .file _, .directory => .isFalse nofun
  | .directory, .file _ => .isFalse nofun

def Entry.kind : Entry → EntryKind
  | .file _ => .file
  | .directory => .directory

structure FileTree where
  /-- Where paths that are not absolute start. -/
  here : Location
  /-- All entries but the root. Directories come before what they hold. -/
  entries : List (Location × Entry)
  deriving Inhabited

namespace FileTree

/-- The entry at a location. The root is a directory. -/
def find? (tree : FileTree) : Location → Option Entry
  | [] => some .directory
  | location => tree.entries.lookup location

/-- Put an entry at a location, in place of the one that is there. -/
def put (tree : FileTree) (location : Location) (entry : Entry) : FileTree :=
  { tree with
    entries :=
      if (tree.entries.lookup location).isSome then
        tree.entries.map fun (other, old) => (other, if other = location then entry else old)
      else tree.entries ++ [(location, entry)] }

theorem find?_eq_lookup (tree : FileTree) {location : Location} (h : location ≠ []) :
    tree.find? location = tree.entries.lookup location := by
  cases location with
  | nil => exact absurd rfl h
  | cons => rfl

theorem lookup_replace (location other : Location) (entry : Entry)
    (entries : List (Location × Entry)) :
    (entries.map fun (o, old) => (o, if o = location then entry else old)).lookup other =
      (entries.lookup other).map fun old => if other = location then entry else old := by
  induction entries with
  | nil => rfl
  | cons head rest ih =>
    obtain ⟨o, old⟩ := head
    by_cases h : other = o
    · subst h; simp
    · have : (other == o) = false := by simpa using h
      simpa [List.lookup_cons, this] using ih

theorem lookup_append (other : Location) (entries more : List (Location × Entry)) :
    (entries ++ more).lookup other = (entries.lookup other).or (more.lookup other) := by
  induction entries with
  | nil => simp
  | cons head rest ih =>
    obtain ⟨o, old⟩ := head
    cases h : other == o <;> simp [List.lookup_cons, h, ih]

/-- A write is seen at its location and nowhere else. -/
theorem find?_put (tree : FileTree) {location : Location} (h : location ≠ []) (entry : Entry)
    (other : Location) :
    (tree.put location entry).find? other =
      if other = location then some entry else tree.find? other := by
  cases other with
  | nil => simp [find?, h.symm]
  | cons name names =>
    have hcons : name :: names ≠ [] := List.cons_ne_nil name names
    rw [find?_eq_lookup _ hcons, find?_eq_lookup _ hcons]
    simp only [put]
    split
    · next hin =>
      rw [lookup_replace]
      split
      · next heq =>
        obtain ⟨old, hold⟩ := Option.isSome_iff_exists.1 hin
        simp [heq, hold]
      · simp
    · next hout =>
      rw [lookup_append]
      split
      · next heq =>
        have hnone : tree.entries.lookup location = none := by
          cases hold : tree.entries.lookup location <;> simp_all
        simp [heq, hnone]
      · next hne =>
        have : (name :: names == location) = false := by simpa using hne
        simp [List.lookup_cons, this]

/-- Names longer than 255 bytes cannot be entries. -/
def isTooLong (name : List Char) : Bool := 255 < (String.ofList name).utf8ByteSize

/-- The location that one more name leads to. -/
def step (location : Location) (name : List Char) : Location :=
  if Path.isIdle name then location
  else if name = ['.', '.'] then location.dropLast
  else location ++ [name]

/-- Follow names from a location. Each but the last has to lead to a directory. -/
def follow (tree : FileTree) : Location → List (List Char) → Except FileFault Location
  | location, [] => .ok location
  | location, name :: rest =>
    match tree.find? location with
    | some .directory =>
      if isTooLong name then .error .nameTooLong else follow tree (step location name) rest
    | some (.file _) => .error .notADirectory
    | none => .error .notFound

/-- The pieces of a text between slashes, and where they are followed from. -/
def origin (tree : FileTree) (p : Path) : Location × List (List Char) :=
  (if p.isAbsolute then [] else tree.here, Text.cutAt '/' p.text.toList)

/-- The location of a path. -/
def locate (tree : FileTree) (p : Path) : Except FileFault Location :=
  if p.text.isEmpty then .error .notFound
  else if p.text.toList.contains '\x00' then .error .nulInName
  else
    let (location, pieces) := tree.origin p
    tree.follow location pieces

/-- The entry of a path. -/
def at? (tree : FileTree) (p : Path) : Except FileFault Entry :=
  match tree.locate p with
  | .error fault => .error fault
  | .ok location =>
    match tree.find? location with
    | some entry => .ok entry
    | none => .error .notFound

def kind? (tree : FileTree) (p : Path) : Option EntryKind :=
  match tree.at? p with
  | .ok entry => some entry.kind
  | .error _ => none

def read (tree : FileTree) (p : Path) : Except FileFault ByteArray :=
  match tree.at? p with
  | .ok (.file content) => .ok content
  | .ok .directory => .error .isADirectory
  | .error fault => .error fault

def write (tree : FileTree) (p : Path) (content : ByteArray) : Except FileFault FileTree :=
  match tree.locate p with
  | .error fault => .error fault
  | .ok location =>
    match tree.find? location with
    | some .directory => .error .isADirectory
    | _ => .ok (tree.put location (.file content))

/-- The path without slashes at its end; the root stays. -/
def dropEndSlashes (p : Path) : Path :=
  let kept := (p.text.toList.reverse.dropWhile (· = '/')).reverse
  if kept.isEmpty then p else ⟨String.ofList kept⟩

def makeDirectory (tree : FileTree) (p : Path) : Except FileFault FileTree :=
  match tree.locate (dropEndSlashes p) with
  | .error fault => .error fault
  | .ok location =>
    match tree.find? location with
    | some _ => .error .alreadyExists
    | none => .ok (tree.put location .directory)

/-- The names that lead from one location to another below it. -/
def namesBelow? : Location → Location → Option (List (List Char))
  | [], names => if names.isEmpty then none else some names
  | name :: location, other :: names => if name = other then namesBelow? location names else none
  | _ :: _, [] => none

def below (tree : FileTree) (p : Path) : List (List (List Char) × EntryKind) :=
  match tree.locate p with
  | .error _ => []
  | .ok location => tree.entries.filterMap fun (other, entry) =>
    (namesBelow? location other).map fun names => (names, entry.kind)

/-- The path of a location. -/
def pathOf (location : Location) : Path := ⟨"/" ++ String.ofList (Text.joinWith '/' location)⟩

/-- Take over a changed tree; after a fault the tree stays. -/
def settle (tree : FileTree) : Except FileFault FileTree → Except FileFault Unit × FileTree
  | .ok changed => (.ok (), changed)
  | .error fault => (.error fault, tree)

instance : FileAccess (StateM FileTree) where
  workingDirectory := fun tree => (pathOf tree.here, tree)
  kind? p := fun tree => (tree.kind? p, tree)
  read p := fun tree => (tree.read p, tree)
  write p content := fun tree => tree.settle (tree.write p content)
  makeDirectory p := fun tree => tree.settle (tree.makeDirectory p)
  below p := fun tree => (tree.below p, tree)

end FileTree
end CrossRef
