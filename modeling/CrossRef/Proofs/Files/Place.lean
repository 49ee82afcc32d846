import CrossRef.Files.Tree
import CrossRef.Proofs.Path

/-!
Where paths lead. The names of a path settle the location that it leads to, if it leads anywhere, and
a tree from which nothing is taken away keeps leading it there.
-/
namespace CrossRef

namespace FileTree

open Text

variable {tree after : FileTree} {p : Path} {location : Location}

/-! ### Places -/

/-- Where a path leads by its names alone. -/
def place (tree : FileTree) (p : Path) : Location :=
  (tree.origin p).2.foldl step (tree.origin p).1

theorem place_eq (tree : FileTree) (p : Path) :
    tree.place p =
      (cutAt '/' p.text.toList).foldl step (if p.isAbsolute then [] else tree.here) := rfl

theorem step_nil (location : Location) : step location [] = location := by
  simp [step, Path.isIdle]

/-- A slash at the end of a path is one more piece, which leads nowhere. -/
theorem place_of_toList {chars : List Char}
    (h : p.text.toList = chars ∨ p.text.toList = chars ++ ['/']) (tree : FileTree) :
    tree.place p = (cutAt '/' chars).foldl step (if p.isAbsolute then [] else tree.here) := by
  rw [place_eq]
  rcases h with h | h
  · rw [h]
  · rw [h, cutAt_append, List.foldl_append]
    simp only [cutAt, List.foldl_cons, List.foldl_nil, step_nil]

/-- A path seen from another one leads on from where that one leads. -/
theorem place_join (tree : FileTree) (base : Path) {p : String} (h : Path.isAbsolute ⟨p⟩ = false) :
    tree.place (base.join p) = (cutAt '/' p.toList).foldl step (tree.place base) := by
  by_cases hempty : base.text = ""
  · have hjoin : base.join p = ⟨p⟩ := by simp [Path.join, h, hempty]
    have hbase : tree.place base = tree.here := by
      simp [place_eq, hempty, cutAt, step_nil, Path.isAbsolute]
    rw [hjoin, hbase, place_eq, h]
    rfl
  · obtain ⟨chars, hjoin, hchars⟩ := Path.exists_join base h hempty
    rw [place_eq, hjoin, cutAt_append, List.foldl_append, Path.isAbsolute_join_of_relative h hempty,
      place_of_toList hchars]

/-- Do names never lead above a directory, followed from a place that far below it? -/
def staysBelow (depth : Nat) : List (List Char) → Bool
  | [] => true
  | name :: rest =>
    if Path.isIdle name then staysBelow depth rest
    else if name = ['.', '.'] then 0 < depth && staysBelow (depth - 1) rest
    else staysBelow (depth + 1) rest

theorem prefix_foldl_step {base : Location} {names : List (List Char)} {depth : Nat}
    (hbase : base <+: location) (hdepth : location.length = base.length + depth)
    (hstays : staysBelow depth names) : base <+: names.foldl step location := by
  induction names generalizing location depth with
  | nil => exact hbase
  | cons name rest ih =>
    rw [staysBelow] at hstays
    rw [List.foldl_cons, step]
    split_ifs at hstays ⊢ with hidle hup
    · exact ih hbase hdepth hstays
    · obtain ⟨hpos, hrest⟩ := (Bool.and_eq_true _ _).mp hstays
      have hpos : 0 < depth := of_decide_eq_true hpos
      obtain ⟨below, rfl⟩ := hbase
      have hne : below ≠ [] := by
        rintro rfl
        simp only [List.append_nil] at hdepth
        omega
      refine ih ?_ ?_ hrest
      · rw [List.dropLast_append_of_ne_nil hne]
        exact List.prefix_append _ _
      · rw [List.length_dropLast]
        omega
    · refine ih (hbase.trans (List.prefix_append _ _)) ?_ hstays
      rw [List.length_append, hdepth]
      rfl

theorem eq_foldl_of_follow {names : List (List Char)} {start : Location}
    (h : tree.follow start names = .ok location) : location = names.foldl step start := by
  induction names generalizing start with
  | nil => exact (Except.ok.inj h).symm
  | cons name rest ih =>
    rw [follow] at h
    split at h
    · split_ifs at h
      exact ih h
    · cases h
    · cases h

theorem eq_place_of_locate (h : tree.locate p = .ok location) : location = tree.place p := by
  rw [locate] at h
  split_ifs at h
  exact eq_foldl_of_follow h

theorem at?_eq_ok_iff {entry : Entry} :
    tree.at? p = .ok entry ↔
      tree.locate p = .ok (tree.place p) ∧ tree.find? (tree.place p) = some entry := by
  rw [at?]
  cases hlocate : tree.locate p with
  | error fault => simp
  | ok location =>
    rw [eq_place_of_locate hlocate]
    cases hfind : tree.find? (tree.place p) <;> simp [hfind]

theorem read_eq_ok_iff {content : ByteArray} :
    tree.read p = .ok content ↔
      tree.locate p = .ok (tree.place p) ∧ tree.find? (tree.place p) = some (.file content) := by
  rw [← at?_eq_ok_iff, read]
  cases tree.at? p with
  | error fault => simp
  | ok entry => cases entry <;> simp

theorem kind?_eq_some_iff {kind : EntryKind} :
    tree.kind? p = some kind ↔ tree.locate p = .ok (tree.place p) ∧
      ∃ entry, tree.find? (tree.place p) = some entry ∧ entry.kind = kind := by
  rw [kind?]
  cases hentry : tree.at? p with
  | error fault =>
    simp only [reduceCtorEq, false_iff, not_and, not_exists]
    intro hlocate entry hfind _
    rw [at?_eq_ok_iff.mpr ⟨hlocate, hfind⟩] at hentry
    cases hentry
  | ok entry =>
    obtain ⟨hlocate, hfind⟩ := at?_eq_ok_iff.mp hentry
    simp [hlocate, hfind]

/-- Where something can be read there is a file. -/
theorem kind?_of_read {content : ByteArray} (h : tree.read p = .ok content) :
    tree.kind? p = some .file := by
  obtain ⟨hlocate, hfind⟩ := read_eq_ok_iff.mp h
  exact kind?_eq_some_iff.mpr ⟨hlocate, _, hfind, rfl⟩

/-! ### What stands below a path -/

theorem namesBelow?_eq_some_iff {other names : Location} :
    namesBelow? location other = some names ↔ other = location ++ names ∧ names ≠ [] := by
  induction location generalizing other with
  | nil =>
    rw [namesBelow?, List.nil_append]
    cases other with
    | nil => simp +contextual
    | cons name rest =>
      rw [if_neg (by simp), Option.some_inj]
      exact ⟨fun h => ⟨h, h ▸ List.cons_ne_nil name rest⟩, And.left⟩
  | cons name location ih =>
    cases other with
    | nil => simp [namesBelow?]
    | cons other rest =>
      rw [namesBelow?, List.cons_append, List.cons.injEq]
      split_ifs with hsame
      · rw [ih, hsame]
        simp
      · simp [Ne.symm hsame]

theorem mem_entries_iff (hlocation : location ≠ []) :
    location ∈ tree.entries.map Prod.fst ↔ (tree.find? location).isSome := by
  rw [find?_eq_lookup tree hlocation, List.mem_map]
  induction tree.entries with
  | nil => simp
  | cons head rest ih =>
    obtain ⟨other, entry⟩ := head
    by_cases hsame : location = other
    · simp [hsame]
    · rw [List.lookup_cons, beq_false_of_ne hsame, ← ih]
      simp [Ne.symm hsame]

/-- The names below a path are those that lead on to an entry. -/
theorem mem_names_below_iff {names : List (List Char)} :
    names ∈ (tree.below p).map Prod.fst ↔
      names ≠ [] ∧ tree.locate p = .ok (tree.place p) ∧ (tree.find? (tree.place p ++ names)).isSome := by
  rw [below]
  cases hlocate : tree.locate p with
  | error fault => simp
  | ok location =>
    obtain rfl := eq_place_of_locate hlocate
    have hmem : names ∈ (tree.entries.filterMap fun item =>
        (namesBelow? (tree.place p) item.1).map fun names => (names, item.2.kind)).map Prod.fst ↔
          names ≠ [] ∧ tree.place p ++ names ∈ tree.entries.map Prod.fst := by
      simp only [List.mem_map, List.mem_filterMap, Option.map_eq_some_iff, namesBelow?_eq_some_iff]
      constructor
      · rintro ⟨_, ⟨⟨other, entry⟩, hentry, names, ⟨rfl, hne⟩, rfl⟩, rfl⟩
        exact ⟨hne, _, hentry, rfl⟩
      · rintro ⟨hne, ⟨other, entry⟩, hentry, rfl⟩
        exact ⟨(names, entry.kind), ⟨_, hentry, names, ⟨rfl, hne⟩, rfl⟩, rfl⟩
    refine hmem.trans (and_congr_right fun hne => ?_)
    rw [mem_entries_iff (by simp [hne])]
    simp

/-! ### Trees that grow -/

/-- What a tree becomes while nothing is taken away: files get new contents, and entries are added. -/
structure Grows (tree after : FileTree) : Prop where
  here : after.here = tree.here
  /-- A directory stays a directory, and a file stays a file. -/
  find? : ∀ location entry, tree.find? location = some entry →
    ∃ entry', after.find? location = some entry' ∧ entry'.kind = entry.kind

theorem Grows.refl (tree : FileTree) : Grows tree tree :=
  ⟨rfl, fun _ entry h => ⟨entry, h, rfl⟩⟩

theorem Grows.trans {middle : FileTree} (first : Grows tree middle) (second : Grows middle after) :
    Grows tree after := by
  refine ⟨second.here.trans first.here, fun location entry hfind => ?_⟩
  obtain ⟨entry', hfind', hkind⟩ := first.find? location entry hfind
  obtain ⟨entry'', hfind'', hkind'⟩ := second.find? location entry' hfind'
  exact ⟨entry'', hfind'', hkind'.trans hkind⟩

theorem Grows.directory (h : Grows tree after) (hfind : tree.find? location = some .directory) :
    after.find? location = some .directory := by
  obtain ⟨entry, hentry, hkind⟩ := h.find? location _ hfind
  cases entry with
  | directory => exact hentry
  | file content => simp [Entry.kind] at hkind

theorem Grows.place_eq (h : Grows tree after) (p : Path) : after.place p = tree.place p := by
  simp only [place, origin, h.here]

theorem Grows.follow (h : Grows tree after) {names : List (List Char)} {start : Location}
    (hfollow : tree.follow start names = .ok location) :
    after.follow start names = .ok location := by
  induction names generalizing start with
  | nil => exact hfollow
  | cons name rest ih =>
    rw [FileTree.follow] at hfollow ⊢
    split at hfollow
    · next hdirectory =>
      rw [h.directory hdirectory]
      split_ifs at hfollow with hlong
      simpa only [if_neg hlong] using ih hfollow
    · cases hfollow
    · cases hfollow

theorem Grows.locate (h : Grows tree after) (hlocate : tree.locate p = .ok location) :
    after.locate p = .ok location := by
  rw [FileTree.locate] at hlocate ⊢
  split_ifs at hlocate ⊢
  simpa only [origin, h.here] using h.follow hlocate

theorem Grows.kind? (h : Grows tree after) {kind : EntryKind} (hkind : tree.kind? p = some kind) :
    after.kind? p = some kind := by
  obtain ⟨hlocate, entry, hfind, rfl⟩ := kind?_eq_some_iff.mp hkind
  obtain ⟨entry', hfind', hkind'⟩ := h.find? _ entry hfind
  rw [← h.place_eq p] at hlocate hfind'
  exact kind?_eq_some_iff.mpr ⟨h.locate hlocate, entry', hfind', hkind'⟩

/-- What stands below a path stays there. -/
theorem Grows.names_below (h : Grows tree after) :
    (tree.below p).map Prod.fst ⊆ (after.below p).map Prod.fst := by
  intro names hnames
  obtain ⟨hne, hlocate, hfind⟩ := mem_names_below_iff.mp hnames
  obtain ⟨entry, hentry⟩ := Option.isSome_iff_exists.mp hfind
  obtain ⟨entry', hentry', -⟩ := h.find? _ entry hentry
  rw [← h.place_eq p] at hlocate hentry'
  exact mem_names_below_iff.mpr ⟨hne, h.locate hlocate, Option.isSome_iff_exists.mpr ⟨_, hentry'⟩⟩

/-! ### Changes -/

/-- Nothing is put where a directory is. -/
theorem grows_put (hlocation : location ≠ []) {entry : Entry}
    (hkind : ∀ old, tree.find? location = some old → old.kind = entry.kind) :
    Grows tree (tree.put location entry) := by
  refine ⟨rfl, fun other old hfind => ?_⟩
  rw [find?_put tree hlocation]
  split_ifs with hsame
  · exact ⟨entry, rfl, (hkind old (hsame ▸ hfind)).symm⟩
  · exact ⟨old, hfind, rfl⟩

theorem ne_nil_of_find? (h : tree.find? location ≠ some .directory) : location ≠ [] :=
  fun hnil => h (hnil ▸ rfl)

theorem ne_nil_of_free (h : tree.find? location = none) : location ≠ [] := by
  rintro rfl
  cases h

/-- A write that succeeds puts the content at the place of its path. -/
theorem write_eq_ok {content : ByteArray} (h : tree.write p content = .ok after) :
    tree.locate p = .ok (tree.place p) ∧ tree.find? (tree.place p) ≠ some .directory ∧
      after = tree.put (tree.place p) (.file content) := by
  rw [write] at h
  split at h
  · cases h
  · next location hlocate =>
    obtain rfl := eq_place_of_locate hlocate
    split at h
    · cases h
    · next hfree => exact ⟨hlocate, hfree, (Except.ok.inj h).symm⟩

/-- A directory is made only where nothing is. -/
theorem makeDirectory_eq_ok (h : tree.makeDirectory p = .ok after) :
    ∃ location, tree.find? location = none ∧ after = tree.put location .directory := by
  rw [makeDirectory] at h
  split at h
  · cases h
  · next location _ =>
    split at h
    · cases h
    · next hfree => exact ⟨location, hfree, (Except.ok.inj h).symm⟩

theorem grows_of_write {content : ByteArray} (h : tree.write p content = .ok after) :
    Grows tree after := by
  obtain ⟨-, hfree, rfl⟩ := write_eq_ok h
  refine grows_put (ne_nil_of_find? hfree) fun old hold => ?_
  cases old with
  | file => rfl
  | directory => exact absurd hold hfree

theorem grows_of_makeDirectory (h : tree.makeDirectory p = .ok after) : Grows tree after := by
  obtain ⟨location, hfree, rfl⟩ := makeDirectory_eq_ok h
  exact grows_put (ne_nil_of_free hfree) fun old hold => by simp [hfree] at hold

/-- What was written is read there. -/
theorem read_of_write {content : ByteArray} (h : tree.write p content = .ok after) :
    after.read p = .ok content := by
  have hgrows := grows_of_write h
  obtain ⟨hlocate, hfree, rfl⟩ := write_eq_ok h
  refine read_eq_ok_iff.mpr ?_
  rw [hgrows.place_eq]
  exact ⟨hgrows.locate hlocate, by rw [find?_put _ (ne_nil_of_find? hfree), if_pos rfl]⟩

end FileTree
end CrossRef
