import CrossRef.Path
import Mathlib.Data.List.DropRight
import Mathlib.Tactic.SplitIfs

/-!
What a path leads through, and what is above it. The names of a path are those of the texts between its
slashes that lead on, wherever it starts, and each step up makes the text of a path shorter.
-/
namespace CrossRef

open Text

namespace Path

variable {p q parent : Path}

/-! ### Names -/

theorem isIdle_nil : isIdle [] = true := rfl

theorem isIdle_dot : isIdle ['.'] = true := rfl

/-- The names are the same when the start is read as one of the pieces. -/
theorem names_eq (p : Path) :
    p.names = (cutAt '/' p.text.toList).filter fun piece => !isIdle piece := by
  rw [names, pieces, start]
  split <;> rename_i htext
  · rw [htext]
    simp [cutAt, isIdle_nil]
  · rw [htext]
    simp [cutAt, isIdle_nil, isIdle_dot]
  · rw [htext]
    simp [cutAt, isIdle_nil, isIdle_dot]
  · rfl

theorem names_of_toList_append {chars after : List Char}
    (h : p.text.toList = chars ++ '/' :: after) :
    p.names = names ⟨String.ofList chars⟩ ++ names ⟨String.ofList after⟩ := by
  rw [names_eq, names_eq, names_eq, h, String.toList_ofList, String.toList_ofList, cutAt_append,
    List.filter_append]

/-- A path goes on from another one after a slash, which is there already or is put in. -/
theorem exists_join (base : Path) {p : String} (hp : isAbsolute ⟨p⟩ = false) (hne : base.text ≠ "") :
    ∃ chars, (base.join p).text.toList = chars ++ '/' :: p.toList ∧
      (base.text.toList = chars ∨ base.text.toList = chars ++ ['/']) := by
  have hchars : base.text.toList ≠ [] := by simpa using hne
  rw [join, if_neg (by simp [hp])]
  obtain ⟨before, last, hlast⟩ := (List.eq_nil_or_concat' _).resolve_left hchars
  by_cases hslash : last = '/'
  · subst hslash
    exact ⟨before, by simp [hlast], .inr hlast⟩
  · exact ⟨base.text.toList, by simp [hlast, hslash, hne], .inl rfl⟩

/-- A path seen from another one leads through the names of both. -/
theorem names_join (base : Path) {p : String} (h : isAbsolute ⟨p⟩ = false) :
    (base.join p).names = base.names ++ names ⟨p⟩ := by
  by_cases hempty : base.text = ""
  · rw [join, if_neg (by simp [h]), hempty, names_eq base, hempty]
    simp [cutAt, isIdle_nil]
  · obtain ⟨chars, hjoin, hbase | hbase⟩ := exists_join base h hempty
    · rw [names_of_toList_append hjoin, ← hbase, String.ofList_toList, String.ofList_toList]
    · have hnone : names ⟨String.ofList []⟩ = [] := rfl
      rw [names_of_toList_append hjoin, names_of_toList_append hbase, hnone, List.append_nil,
        String.ofList_toList]

theorem not_mem_of_mem_cutAt {mark : Char} {cs piece : List Char} (h : piece ∈ cutAt mark cs) :
    mark ∉ piece := by
  induction cs generalizing piece with
  | nil => simp_all [cutAt]
  | cons c cs ih =>
    rw [cutAt] at h
    split_ifs at h with hc
    · rcases List.mem_cons.mp h with rfl | h
      · exact List.not_mem_nil
      · exact ih h
    · split at h
      · next hnone => exact absurd hnone (cutAt_ne_nil mark cs)
      · next first others hsome =>
        rcases List.mem_cons.mp h with rfl | h
        · exact List.not_mem_cons_of_ne_of_not_mem (Ne.symm hc)
            (ih (hsome ▸ List.mem_cons_self))
        · exact ih (hsome ▸ List.mem_cons_of_mem _ h)

/-- A name is a path of its own that leads through itself. -/
theorem of_mem_names {name : List Char} (h : name ∈ p.names) :
    isAbsolute ⟨String.ofList name⟩ = false ∧ names ⟨String.ofList name⟩ = [name] := by
  rw [names_eq, List.mem_filter] at h
  obtain ⟨hpiece, hidle⟩ := h
  have hslash := not_mem_of_mem_cutAt hpiece
  constructor
  · cases name with
    | nil => rfl
    | cons c rest =>
      have hc : c ≠ '/' := fun heq => hslash (heq ▸ List.mem_cons_self)
      simpa [isAbsolute] using hc
  · rw [names_eq, String.toList_ofList, cutAt_of_not_mem hslash, List.filter_singleton, hidle]
    rfl

/-! ### Absolute paths -/

theorem isAbsolute_iff : p.isAbsolute = true ↔ ∃ rest, p.text.toList = '/' :: rest := by
  simp [isAbsolute, List.head?_eq_some_iff]

theorem start_of_isAbsolute (h : p.isAbsolute = true) : p.start = ['/'] := by
  obtain ⟨rest, hrest⟩ := isAbsolute_iff.mp h
  simp only [start, hrest]

theorem isEmpty_of_isAbsolute (h : p.isAbsolute = true) : p.text.isEmpty = false := by
  obtain ⟨rest, hrest⟩ := isAbsolute_iff.mp h
  rw [Bool.eq_false_iff]
  intro hempty
  simp_all

theorem isAbsolute_join {base : Path} (h : base.isAbsolute = true) (p : String) :
    (base.join p).isAbsolute = true := by
  obtain ⟨rest, hrest⟩ := isAbsolute_iff.mp h
  rw [join]
  split_ifs with hp hends
  · exact hp
  · exact isAbsolute_iff.mpr ⟨rest ++ p.toList, by simp [hrest]⟩
  · exact isAbsolute_iff.mpr ⟨rest ++ '/' :: p.toList, by simp [hrest]⟩

theorem isAbsolute_join_of_relative {base : Path} {p : String} (hp : isAbsolute ⟨p⟩ = false)
    (hne : base.text ≠ "") : (base.join p).isAbsolute = base.isAbsolute := by
  obtain ⟨c, rest, hbase⟩ := List.exists_cons_of_ne_nil (l := base.text.toList) (by simpa using hne)
  rw [join, if_neg (by simp [hp])]
  split_ifs <;> simp [isAbsolute, hbase]

theorem isAbsolute_joinAll {base : Path} (h : base.isAbsolute = true) (names : List (List Char)) :
    (base.joinAll names).isAbsolute = true := by
  rw [joinAll]
  induction names generalizing base with
  | nil => exact h
  | cons name rest ih => exact ih (isAbsolute_join h _)

theorem names_joinAll (base : Path) {added : List (List Char)} (h : ∀ name ∈ added, name ∈ p.names) :
    (base.joinAll added).names = base.names ++ added := by
  rw [joinAll]
  induction added generalizing base with
  | nil => simp
  | cons name rest ih =>
    obtain ⟨hname, hrest⟩ := List.forall_mem_cons.mp h
    obtain ⟨hrelative, hsingle⟩ := of_mem_names hname
    rw [List.foldl_cons, ih _ hrest, names_join _ hrelative, hsingle, List.append_assoc,
      List.singleton_append]

/-- Two paths that start alike and lead through the same names. -/
structure SameAs (p q : Path) : Prop where
  start : p.start = q.start
  names : p.names = q.names

theorem isAbsolute_of_startsDoubled (h : p.startsDoubled = true) : p.isAbsolute = true := by
  rw [startsDoubled] at h
  split at h
  · cases h
  · next rest _ htext => exact isAbsolute_iff.mpr ⟨_, htext⟩
  · cases h

/-- What the absolute path for a path is built on. -/
def baseIn (directory p : Path) : Path :=
  if p.startsDoubled then ⟨"//"⟩ else if p.isAbsolute then ⟨"/"⟩ else directory

theorem isAbsolute_baseIn {directory : Path} (h : directory.isAbsolute = true) (p : Path) :
    (baseIn directory p).isAbsolute = true := by
  rw [baseIn]
  split_ifs
  · rfl
  · rfl
  · exact h

theorem names_baseIn (directory p : Path) :
    (baseIn directory p).names = if p.isAbsolute then [] else directory.names := by
  rw [baseIn]
  split_ifs with hdoubled habsolute habsolute
  · rfl
  · exact absurd (isAbsolute_of_startsDoubled hdoubled) habsolute
  · rfl
  · rfl

theorem absoluteIn_eq (directory : Path) (hne : p.text ≠ "") :
    absoluteIn directory p = (baseIn directory p).joinAll p.names ∨
      absoluteIn directory p = ((baseIn directory p).joinAll p.names).join "" := by
  have hempty : ¬ p.text.isEmpty = true := by simpa using hne
  by_cases hends : p.text.toList.getLast? = some '/'
  · right
    simp only [absoluteIn, baseIn, if_neg hempty, if_pos hends]
  · left
    simp only [absoluteIn, baseIn, if_neg hempty, if_neg hends]

/-- A text that is not empty means an absolute path in a directory, the one that it is as seen from there. -/
theorem absoluteIn_sameAs {directory : Path} (hdirectory : directory.isAbsolute = true)
    (hne : p.text ≠ "") :
    (absoluteIn directory p).isAbsolute = true ∧
      (absoluteIn directory p).SameAs (directory.join p.text) := by
  have hwhole : ((baseIn directory p).joinAll p.names).isAbsolute = true :=
    isAbsolute_joinAll (isAbsolute_baseIn hdirectory p) _
  have habsolute : (absoluteIn directory p).isAbsolute = true := by
    rcases absoluteIn_eq directory hne with heq | heq
    · exact heq ▸ hwhole
    · exact heq ▸ isAbsolute_join hwhole ""
  have hnames : (absoluteIn directory p).names = (baseIn directory p).names ++ p.names := by
    have hadded : ((baseIn directory p).joinAll p.names).names =
        (baseIn directory p).names ++ p.names := names_joinAll _ fun _ => id
    rcases absoluteIn_eq directory hne with heq | heq
    · rw [heq, hadded]
    · rw [heq, names_join _ rfl, hadded, show names ⟨""⟩ = [] from rfl, List.append_nil]
  refine ⟨habsolute, ?_, ?_⟩
  · rw [start_of_isAbsolute habsolute, start_of_isAbsolute (isAbsolute_join hdirectory _)]
  · rw [hnames, names_baseIn]
    split_ifs with hp
    · rw [join_of_isAbsolute _ hp, List.nil_append]
    · rw [names_join _ (by simpa using hp)]

/-! ### The paths above -/

theorem length_joinWith_le {mark : Char} {pieces more : List (List Char)} (h : pieces <+: more) :
    (joinWith mark pieces).length ≤ (joinWith mark more).length := by
  obtain ⟨rest, rfl⟩ := h
  induction pieces with
  | nil => simp [joinWith]
  | cons piece pieces ih =>
    cases pieces with
    | nil => cases rest <;> simp [joinWith]
    | cons next pieces => simpa [joinWith] using ih

theorem length_joinWith_lt {mark : Char} {last : List Char} (hlast : last ≠ [])
    (pieces : List (List Char)) :
    (joinWith mark pieces).length < (joinWith mark (pieces ++ [last])).length := by
  induction pieces with
  | nil => simpa [joinWith] using List.length_pos_of_ne_nil hlast
  | cons piece pieces ih =>
    cases pieces with
    | nil => simp [joinWith]
    | cons next pieces => simpa [joinWith] using ih

theorem start_prefix_text (p : Path) : p.start <+: p.text.toList := by
  rw [start]
  split <;> rename_i htext
  · exact htext ▸ ⟨_, rfl⟩
  · exact htext ▸ List.prefix_rfl
  · exact htext ▸ ⟨_, rfl⟩
  · exact List.nil_prefix

theorem length_text (p : Path) :
    p.text.length = p.start.length + (joinWith '/' p.pieces).length := by
  rw [pieces, joinWith_cutAt, ← List.length_append, List.prefix_iff_eq_append.mp p.start_prefix_text,
    String.length_toList]

theorem dropIdleEnd_eq (pieces : List (List Char)) :
    dropIdleEnd pieces = pieces.rdropWhile isIdle := rfl

theorem dropIdleEnd_prefix_self (pieces : List (List Char)) : dropIdleEnd pieces <+: pieces :=
  dropIdleEnd_eq pieces ▸ List.rdropWhile_prefix isIdle pieces

/-- A step up makes the text shorter. -/
theorem length_lt_of_parent? (h : p.parent? = some parent) :
    parent.text.length < p.text.length := by
  rw [p.length_text]
  rw [parent?] at h
  rcases List.eq_nil_or_concat' (dropIdleEnd p.pieces) with hnil | ⟨passed, last, hpieces⟩
  · simp only [hnil, List.isEmpty_nil, if_true, Option.ite_none_right_eq_some] at h
    obtain ⟨hdot, hempty⟩ := h
    rw [← Option.some_inj.mp hempty, hdot]
    exact Nat.add_pos_left Nat.one_pos _
  · -- No idle piece is at the end, so the last one takes characters with it.
    have hlast : last ≠ [] := by
      rintro rfl
      rw [dropIdleEnd_eq] at hpieces
      have hlast := List.rdropWhile_last_not isIdle p.pieces (by simp [hpieces])
      simp only [hpieces, List.getLast_concat, isIdle_nil, not_true] at hlast
    simp only [hpieces] at h
    rw [if_neg (by simp), List.dropLast_concat, Option.some_inj] at h
    calc parent.text.length
        = p.start.length + (joinWith '/' (dropIdleEnd passed)).length := by
          rw [← h, ofPieces, ← String.length_toList, String.toList_ofList, List.length_append]
      _ ≤ p.start.length + (joinWith '/' passed).length :=
          Nat.add_le_add_left (length_joinWith_le (dropIdleEnd_prefix_self passed)) _
      _ < p.start.length + (joinWith '/' (passed ++ [last])).length :=
          Nat.add_lt_add_left (length_joinWith_lt hlast passed) _
      _ ≤ p.start.length + (joinWith '/' p.pieces).length :=
          Nat.add_le_add_left (length_joinWith_le (hpieces ▸ dropIdleEnd_prefix_self p.pieces)) _

theorem above_add {count : Nat} (h : p.text.length ≤ count) (more : Nat) :
    p.above (count + more) = p.above count := by
  induction count generalizing p with
  | zero =>
    have hnone : p.parent? = none := Option.eq_none_iff_forall_ne_some.mpr fun parent hparent =>
      absurd (length_lt_of_parent? hparent) (by omega)
    cases more <;> simp [above, hnone]
  | succ count ih =>
    rw [Nat.add_right_comm, above, above]
    cases hparent : p.parent? with
    | none => rfl
    | some parent =>
      have hlt := length_lt_of_parent? hparent
      simp only [ih (p := parent) (by omega)]

/-- All paths above a path, nearest first, up to one that has none above it. -/
def ancestors (p : Path) : List Path := p.above p.text.length

theorem ancestors_of_none (h : p.parent? = none) : p.ancestors = [] := by
  rw [ancestors]
  cases p.text.length <;> simp [above, h]

theorem ancestors_of_some (h : p.parent? = some parent) :
    p.ancestors = parent :: parent.ancestors := by
  have hlt := length_lt_of_parent? h
  obtain ⟨more, hmore⟩ := Nat.exists_eq_add_of_lt hlt
  rw [ancestors, ancestors, hmore, above, h]
  simp only [above_add (le_refl parent.text.length)]

theorem above_eq_take (count : Nat) (p : Path) : p.above count = p.ancestors.take count := by
  induction count generalizing p with
  | zero => simp [above]
  | succ count ih =>
    rw [above]
    cases hparent : p.parent? with
    | none => simp [ancestors_of_none hparent]
    | some parent => simp [ancestors_of_some hparent, ih]

theorem isAbsolute_of_parent? (hp : p.isAbsolute = true) (h : p.parent? = some parent) :
    parent.isAbsolute = true := by
  rw [parent?, start_of_isAbsolute hp] at h
  split_ifs at h with hempty hdot
  · cases hdot
  · rw [← Option.some_inj.mp h]
    exact isAbsolute_iff.mpr ⟨_, String.toList_ofList⟩

theorem isAbsolute_of_mem_above {count : Nat} (hp : p.isAbsolute = true) (h : q ∈ p.above count) :
    q.isAbsolute = true := by
  induction count generalizing p with
  | zero => simp [above] at h
  | succ count ih =>
    rw [above] at h
    cases hparent : p.parent? with
    | none => simp [hparent] at h
    | some parent =>
      have habsolute := isAbsolute_of_parent? hp hparent
      simp only [hparent, List.mem_cons] at h
      exact h.elim (· ▸ habsolute) (ih habsolute)

end Path
end CrossRef
