import CrossRef.Config.Located
import CrossRef.Proofs.Files.Held

/-!
Which settings file is used. Directories are searched from one upward, and the nearest that holds a
settings file gives it, unless one before it holds a repository.
-/
namespace CrossRef

namespace FileTree

/-- Does a directory hold a file of this name? -/
def holdsFile (tree : FileTree) (directory : Path) (name : String) : Bool :=
  (tree.entryIn? directory name).map Entry.kind = some .file

/-- Does a directory hold anything of this name? -/
def holds (tree : FileTree) (directory : Path) (name : String) : Bool :=
  (tree.entryIn? directory name).isSome

end FileTree

namespace Config

variable {tree : FileTree} {directory first : Path} {directories : List Path} {k : Nat}

/-! ### Directories with settings -/

def holdsSettings (tree : FileTree) (directory : Path) : Bool :=
  tree.holdsFile directory ".chapterlink.toml" || tree.holdsFile directory "chapterlink.toml"

/-- The name of the settings file in a directory that holds one. -/
def settingsName (tree : FileTree) (directory : Path) : String :=
  if tree.holdsFile directory ".chapterlink.toml" then ".chapterlink.toml" else "chapterlink.toml"

/-- The directory at a place of a list holds a settings file, and no directory before it holds a
repository. -/
structure SettingsAt (tree : FileTree) (directories : List Path) (k : Nat) (directory : Path) :
    Prop where
  place : directories[k]? = some directory
  settings : holdsSettings tree directory = true
  unbounded : ∀ j < k, ∀ passed, directories[j]? = some passed → tree.holds passed ".git" = false

theorem settingsAt_zero :
    SettingsAt tree (first :: directories) 0 directory ↔
      first = directory ∧ holdsSettings tree directory = true := by
  constructor
  · rintro ⟨hplace, hsettings, -⟩
    exact ⟨by simpa using hplace, hsettings⟩
  · rintro ⟨rfl, hsettings⟩
    exact ⟨rfl, hsettings, by simp⟩

theorem settingsAt_succ :
    SettingsAt tree (first :: directories) (k + 1) directory ↔
      tree.holds first ".git" = false ∧ SettingsAt tree directories k directory := by
  constructor
  · rintro ⟨hplace, hsettings, hunbounded⟩
    exact ⟨hunbounded 0 (by omega) first rfl, by simpa using hplace, hsettings,
      fun j hj passed hpassed => hunbounded (j + 1) (by omega) passed (by simpa using hpassed)⟩
  · rintro ⟨hfirst, hplace, hsettings, hunbounded⟩
    refine ⟨by simpa using hplace, hsettings, fun j hj passed hpassed => ?_⟩
    cases j with
    | zero => exact Option.some_inj.mp hpassed ▸ hfirst
    | succ j => exact hunbounded j (by omega) passed (by simpa using hpassed)

/-! ### The search -/

theorem bind_run {α β : Type} (x : StateM FileTree α) (f : α → StateM FileTree β) (tree : FileTree) :
    (x >>= f) tree = f (x tree).1 (x tree).2 := rfl

theorem isFile_run (p : Path) (tree : FileTree) :
    (Files.isFile p : StateM FileTree Bool) tree =
      (decide (tree.kind? p = some .file), tree) := rfl

theorem exists?_run (p : Path) (tree : FileTree) :
    (Files.exists? p : StateM FileTree Bool) tree = ((tree.kind? p).isSome, tree) := rfl

theorem firstFile?_run (paths : List Path) (tree : FileTree) :
    (firstFile? paths : StateM FileTree (Option Path)) tree =
      (paths.find? fun p => tree.kind? p = some .file, tree) := by
  induction paths with
  | nil => rfl
  | cons p rest ih =>
    rw [firstFile?, bind_run, isFile_run]
    by_cases hfile : tree.kind? p = some .file
    · rw [List.find?_cons_of_pos (by simp [hfile]), decide_eq_true hfile]
      rfl
    · rw [List.find?_cons_of_neg (by simp [hfile]), decide_eq_false hfile, ← ih]
      rfl

theorem isFile_join (tree : FileTree) {name : String} (hdirectory : directory.isAbsolute = true)
    (hname : FileTree.isName name = true) :
    decide (tree.kind? (directory.join name) = some .file) = tree.holdsFile directory name := by
  rw [FileTree.kind?_join hdirectory hname, FileTree.holdsFile]

theorem firstFile?_fileNames (hdirectory : directory.isAbsolute = true) :
    (firstFile? (fileNames.map directory.join) : StateM FileTree (Option Path)) tree =
      (if holdsSettings tree directory then some (directory.join (settingsName tree directory))
        else none, tree) := by
  have hhidden := isFile_join tree hdirectory (show FileTree.isName ".chapterlink.toml" = true by decide)
  have hplain := isFile_join tree hdirectory (show FileTree.isName "chapterlink.toml" = true by decide)
  rw [firstFile?_run, fileNames, newFileName, holdsSettings, settingsName]
  refine congrArg (·, tree) ?_
  simp only [List.map_cons, List.map_nil, List.find?_cons, List.find?_nil, hhidden, hplain]
  cases tree.holdsFile directory ".chapterlink.toml" with
  | true => rfl
  | false => cases tree.holdsFile directory "chapterlink.toml" <;> rfl

/-- One step of the search. -/
theorem findIn?_cons_run (hfirst : first.isAbsolute = true) :
    (findIn? (first :: directories) : StateM FileTree (Option Path)) tree =
      if holdsSettings tree first then (some (first.join (settingsName tree first)), tree)
      else if tree.holds first ".git" then (none, tree)
      else (findIn? directories : StateM FileTree (Option Path)) tree := by
  have hrepository :
      (Files.exists? (first.join repositoryName) : StateM FileTree Bool) tree =
        (tree.holds first ".git", tree) := by
    rw [exists?_run, repositoryName, FileTree.kind?_join hfirst (by decide), Option.isSome_map,
      FileTree.holds]
  rw [findIn?, bind_run, firstFile?_fileNames hfirst]
  split_ifs with hsettings hgit
  · rfl
  all_goals
    simp only [bind_run, hrepository, hgit]
    rfl

/-- A search of directories one after the other comes to the settings file of the nearest one that has
settings and is within bounds. -/
theorem findIn?_run (habsolute : ∀ directory ∈ directories, directory.isAbsolute = true) :
    ∃ found, (findIn? directories : StateM FileTree (Option Path)) tree = (found, tree) ∧
      (found.isSome ↔ ∃ k directory, SettingsAt tree directories k directory) ∧
      ∀ k directory, SettingsAt tree directories k directory →
        (∀ j < k, ∀ nearer, ¬ SettingsAt tree directories j nearer) →
        found = some (directory.join (settingsName tree directory)) := by
  induction directories with
  | nil =>
    have hnone : ∀ k directory, ¬ SettingsAt tree [] k directory := fun k directory h => by
      simpa using h.place
    exact ⟨none, rfl, by simp [hnone], fun k directory h => absurd h (hnone k directory)⟩
  | cons first rest ih =>
    obtain ⟨hfirst, hrest⟩ := List.forall_mem_cons.mp habsolute
    rw [findIn?_cons_run hfirst]
    by_cases hsettings : holdsSettings tree first = true
    · have hhere : SettingsAt tree (first :: rest) 0 first := settingsAt_zero.mpr ⟨rfl, hsettings⟩
      refine ⟨_, if_pos hsettings, by simpa using ⟨0, first, hhere⟩, fun k directory h hnearest => ?_⟩
      cases k with
      | zero => rw [(settingsAt_zero.mp h).1]
      | succ k => exact absurd hhere (hnearest 0 (by omega) first)
    rw [if_neg hsettings]
    have hnot : ∀ directory, ¬ SettingsAt tree (first :: rest) 0 directory := fun directory h =>
      hsettings ((settingsAt_zero.mp h).1 ▸ h.settings)
    by_cases hgit : tree.holds first ".git" = true
    · have hnone : ∀ k directory, ¬ SettingsAt tree (first :: rest) k directory
        | 0, directory => hnot directory
        | k + 1, directory => fun h => by simpa [hgit] using (settingsAt_succ.mp h).1
      exact ⟨none, if_pos hgit, by simp [hnone], fun k directory h => absurd h (hnone k directory)⟩
    · -- Nothing here ends the search, so the places of the rest are those of the list, one further.
      have hfree := eq_false_of_ne_true hgit
      obtain ⟨found, hrun, hsome, hnearest⟩ := ih hrest
      refine ⟨found, by rw [if_neg hgit, hrun], hsome.trans ⟨?_, ?_⟩, fun k directory h hno => ?_⟩
      · rintro ⟨k, directory, h⟩
        exact ⟨k + 1, directory, settingsAt_succ.mpr ⟨hfree, h⟩⟩
      · rintro ⟨k, directory, h⟩
        cases k with
        | zero => exact absurd h (hnot directory)
        | succ k => exact ⟨k, directory, (settingsAt_succ.mp h).2⟩
      · cases k with
        | zero => exact absurd h (hnot directory)
        | succ k =>
          exact hnearest k directory (settingsAt_succ.mp h).2 fun j hj nearer hnearer =>
            hno (j + 1) (by omega) nearer (settingsAt_succ.mpr ⟨hfree, hnearer⟩)

/-- From a directory with fewer than a hundred above it, the settings file of the nearest directory that
has one is found, as long as no directory before that one holds a repository. The name that starts with a
point goes before the other one. -/
theorem find?_run (tree : FileTree) {directory : Path} (hdirectory : directory.isAbsolute = true)
    (hfew : directory.ancestors.length < 100) :
    let directories := directory :: directory.ancestors
    ∃ found, (find? directory : StateM FileTree (Option Path)) tree = (found, tree) ∧
      (found.isSome ↔ ∃ k d, SettingsAt tree directories k d) ∧
      ∀ k d, SettingsAt tree directories k d → (∀ j < k, ∀ e, ¬ SettingsAt tree directories j e) →
        found = some (d.join (settingsName tree d)) := by
  intro directories
  have hsearched : searched directory = directories := by
    rw [searched, Path.above_eq_take, maxSearched, List.take_of_length_le (by omega)]
  rw [find?, hsearched]
  refine findIn?_run ?_
  rw [List.forall_mem_cons]
  exact ⟨hdirectory, fun d hd => Path.isAbsolute_of_mem_above hdirectory hd⟩

/-- The directory of the repository is still searched, and a directory with the name of a settings file is
none. -/
theorem find?_beside_repository :
    let tree : FileTree := ⟨[], [([['p']], .directory), ([['p'], ".git".toList], .directory),
      ([['p'], ".chapterlink.toml".toList], .directory),
      ([['p'], "chapterlink.toml".toList], .file .empty), ([['p'], ['a']], .directory)]⟩
    let directory : Path := ⟨"/p/a"⟩
    directory.isAbsolute = true ∧ directory.ancestors.length < 100 ∧
      (find? directory : StateM FileTree (Option Path)) tree =
        (some ⟨"/p/chapterlink.toml"⟩, tree) := by
  intro tree directory
  have hdirectory : directory.isAbsolute = true := by decide +kernel
  have hancestors : directory.ancestors = [⟨"/p"⟩, ⟨"/"⟩] := by decide +kernel
  have hfew : directory.ancestors.length < 100 := by simp [hancestors]
  obtain ⟨found, hrun, -, hnearest⟩ := find?_run tree hdirectory hfew
  have hsettings : holdsSettings tree ⟨"/p"⟩ = true ∧ holdsSettings tree directory = false ∧
      tree.holds directory ".git" = false ∧
      (⟨"/p"⟩ : Path).join (settingsName tree ⟨"/p"⟩) = ⟨"/p/chapterlink.toml"⟩ := by
    decide +kernel
  obtain ⟨hproject, hstart, hfree, hpath⟩ := hsettings
  have hat : SettingsAt tree (directory :: directory.ancestors) 1 ⟨"/p"⟩ :=
    settingsAt_succ.mpr ⟨hfree, hancestors ▸ settingsAt_zero.mpr ⟨rfl, hproject⟩⟩
  refine ⟨hdirectory, hfew, hrun.trans ?_⟩
  rw [hnearest 1 ⟨"/p"⟩ hat, hpath]
  intro j hj nearer h
  obtain rfl : j = 0 := by omega
  obtain ⟨rfl, hnearer⟩ := settingsAt_zero.mp h
  simp [hstart] at hnearer

end Config
end CrossRef
