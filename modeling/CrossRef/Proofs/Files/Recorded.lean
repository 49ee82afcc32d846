import CrossRef.Proofs.Files.Place

/-!
Runs over a tree of files that record what they attempt. A program that is written for any access to
files can be run with the record and without it: it does the same, and the record holds all that
becomes of the tree.
-/
namespace CrossRef

/-- A change that a program asks for. -/
inductive Attempt
  | write (path : Path) (content : ByteArray)
  | makeDirectory (path : Path)

namespace Attempt

variable {tree : FileTree} {location : Location}

/-- What an attempt answers and leaves. -/
def carryOut (tree : FileTree) : Attempt → Except FileFault Unit × FileTree
  | write path content => tree.settle (tree.write path content)
  | makeDirectory path => tree.settle (tree.makeDirectory path)

/-- The tree after attempts were made one after the other. -/
def replay (tree : FileTree) (attempts : List Attempt) : FileTree :=
  attempts.foldl (fun tree attempt => (attempt.carryOut tree).2) tree

@[simp] theorem replay_nil (tree : FileTree) : replay tree [] = tree := rfl

theorem replay_append (tree : FileTree) (first second : List Attempt) :
    replay tree (first ++ second) = replay (replay tree first) second :=
  List.foldl_append

theorem grows_carryOut (tree : FileTree) (attempt : Attempt) :
    tree.Grows (attempt.carryOut tree).2 := by
  cases attempt with
  | write path content =>
    cases hwrite : tree.write path content with
    | ok after => simpa [carryOut, hwrite, FileTree.settle] using FileTree.grows_of_write hwrite
    | error fault => simpa [carryOut, hwrite, FileTree.settle] using FileTree.Grows.refl tree
  | makeDirectory path =>
    cases hmake : tree.makeDirectory path with
    | ok after =>
      simpa [carryOut, hmake, FileTree.settle] using FileTree.grows_of_makeDirectory hmake
    | error fault => simpa [carryOut, hmake, FileTree.settle] using FileTree.Grows.refl tree

theorem grows_replay (tree : FileTree) (attempts : List Attempt) :
    tree.Grows (replay tree attempts) := by
  induction attempts generalizing tree with
  | nil => exact .refl tree
  | cons attempt rest ih => exact (grows_carryOut tree attempt).trans (ih _)

/-- A file keeps its content when another place is written to. -/
theorem find?_carryOut {attempt : Attempt} {content : ByteArray}
    (hapart : ∀ path new, attempt = .write path new → tree.place path ≠ location)
    (hfind : tree.find? location = some (.file content)) :
    (attempt.carryOut tree).2.find? location = some (.file content) := by
  cases attempt with
  | write path new =>
    cases hwrite : tree.write path new with
    | error fault => simpa [carryOut, hwrite, FileTree.settle] using hfind
    | ok after =>
      obtain ⟨-, hfree, rfl⟩ := FileTree.write_eq_ok hwrite
      simp only [carryOut, hwrite, FileTree.settle]
      rw [FileTree.find?_put _ (FileTree.ne_nil_of_find? hfree), if_neg (hapart path new rfl).symm,
        hfind]
  | makeDirectory path =>
    cases hmake : tree.makeDirectory path with
    | error fault => simpa [carryOut, hmake, FileTree.settle] using hfind
    | ok after =>
      obtain ⟨new, hfree, rfl⟩ := FileTree.makeDirectory_eq_ok hmake
      have hne : location ≠ new := fun heq => by simp [heq, hfree] at hfind
      simp only [carryOut, hmake, FileTree.settle]
      rw [FileTree.find?_put _ (FileTree.ne_nil_of_free hfree), if_neg hne, hfind]

/-- A file that is read keeps its content through attempts that write to other places. -/
theorem read_replay {attempts : List Attempt} {p : Path} {content : ByteArray}
    (hapart : ∀ path new, write path new ∈ attempts → tree.place path ≠ tree.place p)
    (hread : tree.read p = .ok content) : (replay tree attempts).read p = .ok content := by
  induction attempts generalizing tree with
  | nil => exact hread
  | cons attempt rest ih =>
    have hgrows := grows_carryOut tree attempt
    obtain ⟨hlocate, hfind⟩ := FileTree.read_eq_ok_iff.mp hread
    refine ih (fun path new hmem => ?_) (FileTree.read_eq_ok_iff.mpr ?_)
    · rw [hgrows.place_eq, hgrows.place_eq]
      exact hapart path new (List.mem_cons_of_mem _ hmem)
    · rw [hgrows.place_eq]
      exact ⟨hgrows.locate hlocate, find?_carryOut
        (fun path new heq => hapart path new (heq ▸ List.mem_cons_self)) hfind⟩

end Attempt

/-! ### Recorded runs -/

/-- A program over a tree of files: what it answers, and what it attempts one after the other. -/
structure Recorded (α : Type) where
  value : FileTree → α
  attempts : FileTree → List Attempt

namespace Recorded

variable {α β : Type}

/-- What a program leaves. -/
def after (x : Recorded α) (tree : FileTree) : FileTree := Attempt.replay tree (x.attempts tree)

@[ext] theorem ext' {x y : Recorded α} (hvalue : ∀ tree, x.value tree = y.value tree)
    (hattempts : ∀ tree, x.attempts tree = y.attempts tree) : x = y := by
  obtain ⟨value, attempts⟩ := x
  obtain rfl : value = y.value := funext hvalue
  obtain rfl : attempts = y.attempts := funext hattempts
  rfl

instance : Monad Recorded where
  pure a := ⟨fun _ => a, fun _ => []⟩
  bind x f :=
    ⟨fun tree => (f (x.value tree)).value (x.after tree),
      fun tree => x.attempts tree ++ (f (x.value tree)).attempts (x.after tree)⟩

@[simp] theorem value_pure (a : α) (tree : FileTree) : (pure a : Recorded α).value tree = a := rfl

@[simp] theorem attempts_pure (a : α) (tree : FileTree) : (pure a : Recorded α).attempts tree = [] :=
  rfl

@[simp] theorem after_pure (a : α) (tree : FileTree) : (pure a : Recorded α).after tree = tree := rfl

@[simp] theorem value_bind (x : Recorded α) (f : α → Recorded β) (tree : FileTree) :
    (x >>= f).value tree = (f (x.value tree)).value (x.after tree) := rfl

@[simp] theorem attempts_bind (x : Recorded α) (f : α → Recorded β) (tree : FileTree) :
    (x >>= f).attempts tree = x.attempts tree ++ (f (x.value tree)).attempts (x.after tree) := rfl

@[simp] theorem after_bind (x : Recorded α) (f : α → Recorded β) (tree : FileTree) :
    (x >>= f).after tree = (f (x.value tree)).after (x.after tree) :=
  Attempt.replay_append tree _ _

instance : LawfulMonad Recorded := LawfulMonad.mk' Recorded
  (by intro α x; ext tree <;> simp [Functor.map])
  (by intro α β a f; rfl)
  (by intro α β γ x f g; ext tree <;> simp)

instance : FileAccess Recorded where
  workingDirectory := ⟨fun tree => FileTree.pathOf tree.here, fun _ => []⟩
  kind? p := ⟨fun tree => tree.kind? p, fun _ => []⟩
  read p := ⟨fun tree => tree.read p, fun _ => []⟩
  write p content := ⟨fun tree => ((Attempt.write p content).carryOut tree).1,
    fun _ => [.write p content]⟩
  makeDirectory p := ⟨fun tree => ((Attempt.makeDirectory p).carryOut tree).1,
    fun _ => [.makeDirectory p]⟩
  below p := ⟨fun tree => tree.below p, fun _ => []⟩

@[simp] theorem value_read (p : Path) (tree : FileTree) :
    (FileAccess.read p : Recorded _).value tree = tree.read p := rfl

@[simp] theorem attempts_read (p : Path) (tree : FileTree) :
    (FileAccess.read p : Recorded _).attempts tree = [] := rfl

theorem grows_after (x : Recorded α) (tree : FileTree) : tree.Grows (x.after tree) :=
  Attempt.grows_replay tree _

/-- A program that goes on only when its first part succeeds has gone on if it succeeds. -/
theorem exists_of_value_bind {ε ε' : Type} {x : Recorded (Except ε α)}
    {f : Except ε α → Recorded (Except ε' β)} {tree : FileTree} {b : β}
    (h : (x >>= f).value tree = .ok b)
    (hstops : ∀ fault, ∃ fault', f (.error fault) = pure (.error fault')) :
    ∃ a, x.value tree = .ok a ∧ (f (.ok a)).value (x.after tree) = .ok b ∧
      (x >>= f).attempts tree = x.attempts tree ++ (f (.ok a)).attempts (x.after tree) ∧
      (x >>= f).after tree = (f (.ok a)).after (x.after tree) := by
  cases hx : x.value tree with
  | error fault =>
    obtain ⟨fault', hfault⟩ := hstops fault
    rw [value_bind, hx, hfault] at h
    cases h
  | ok a =>
    rw [value_bind, hx] at h
    exact ⟨a, rfl, h, by rw [attempts_bind, hx], by rw [after_bind, hx]⟩

/-! ### Programs for each element of a list -/

/-- A result comes from an element, after the programs for those before it. -/
theorem exists_of_mem_value_mapM {f : α → Recorded β} {as : List α} {tree : FileTree} {b : β}
    (h : b ∈ (as.mapM f).value tree) :
    ∃ before a later, as = before ++ a :: later ∧ b = (f a).value ((before.mapM f).after tree) := by
  induction as generalizing tree with
  | nil => nomatch h
  | cons first rest ih =>
    rw [List.mapM_cons] at h
    rcases List.mem_cons.mp h with rfl | hrest
    · exact ⟨[], first, rest, rfl, rfl⟩
    · obtain ⟨before, a, later, rfl, rfl⟩ := ih hrest
      refine ⟨first :: before, a, later, rfl, ?_⟩
      rw [List.mapM_cons, after_bind, after_bind, after_pure]

/-- What is shown of the results is shown by the elements, if it does not depend on the tree. -/
theorem map_value_mapM {γ : Type} {f : α → Recorded β} {show? : β → γ} {shown : α → γ}
    (h : ∀ a tree, show? ((f a).value tree) = shown a) (as : List α) (tree : FileTree) :
    ((as.mapM f).value tree).map show? = as.map shown := by
  induction as generalizing tree with
  | nil => rfl
  | cons a rest ih =>
    rw [List.mapM_cons, List.map_cons, ← h a tree, ← ih ((f a).after tree)]
    rfl

theorem attempts_mapM {f : α → Recorded β} {attempted : α → List Attempt}
    (h : ∀ a tree, (f a).attempts tree = attempted a) (as : List α) (tree : FileTree) :
    (as.mapM f).attempts tree = as.flatMap attempted := by
  induction as generalizing tree with
  | nil => rfl
  | cons a rest ih =>
    rw [List.mapM_cons, attempts_bind, attempts_bind, h, ih, List.flatMap_cons, attempts_pure,
      List.append_nil]

/-! ### With the record and without it -/

/-- A program with the record does what a program without it does. -/
def Follows (x : Recorded α) (y : StateM FileTree α) : Prop :=
  ∀ tree, y tree = (x.value tree, x.after tree)

namespace Follows

theorem pure (a : α) : Follows (Pure.pure a) (Pure.pure a) := fun _ => rfl

theorem bind {x : Recorded α} {y : StateM FileTree α} {f : α → Recorded β}
    {g : α → StateM FileTree β} (hx : Follows x y) (hf : ∀ a, Follows (f a) (g a)) :
    Follows (x >>= f) (y >>= g) := by
  intro tree
  rw [value_bind, after_bind, ← hf]
  show g (y tree).1 (y tree).2 = _
  rw [hx]

theorem mapM {f : α → Recorded β} {g : α → StateM FileTree β} (h : ∀ a, Follows (f a) (g a))
    (as : List α) : Follows (as.mapM f) (as.mapM g) := by
  induction as with
  | nil => exact pure []
  | cons a rest ih =>
    rw [List.mapM_cons, List.mapM_cons]
    exact (h a).bind fun b => ih.bind fun bs => pure (b :: bs)

end Follows

/-! ### What is attempted -/

/-- A program writes only to paths of a kind, as seen in the tree that it leaves. -/
def WritesOnly (x : Recorded α) (kind : FileTree → Path → Prop) : Prop :=
  ∀ tree path content, Attempt.write path content ∈ x.attempts tree → kind (x.after tree) path

namespace WritesOnly

variable {kind : FileTree → Path → Prop}

theorem pure (a : α) : WritesOnly (Pure.pure a) kind := fun _ _ _ h => nomatch h

/-- A kind that paths keep while the tree grows goes from programs to the one they make up. -/
theorem bind {x : Recorded α} {f : α → Recorded β}
    (hkeeps : ∀ {tree after path}, tree.Grows after → kind tree path → kind after path)
    (hx : x.WritesOnly kind) (hf : ∀ a, (f a).WritesOnly kind) : (x >>= f).WritesOnly kind := by
  intro tree path content hwrite
  rw [after_bind]
  rcases List.mem_append.mp hwrite with hfirst | hsecond
  · exact hkeeps (grows_after _ _) (hx tree path content hfirst)
  · exact hf _ _ path content hsecond

theorem mono {x : Recorded α} {kind' : FileTree → Path → Prop} (hx : x.WritesOnly kind)
    (h : ∀ tree path, kind tree path → kind' tree path) : x.WritesOnly kind' :=
  fun tree path content hwrite => h _ path (hx tree path content hwrite)

end WritesOnly

/-- A program writes a content to a path, and right after that it is there. -/
def Writes (x : Recorded α) (tree : FileTree) (path : Path) (content : ByteArray) : Prop :=
  ∃ earlier later, x.attempts tree = earlier ++ .write path content :: later ∧
    (Attempt.replay tree (earlier ++ [.write path content])).read path = .ok content

namespace Writes

variable {x : Recorded α} {f : α → Recorded β} {tree : FileTree} {path : Path} {content : ByteArray}

theorem bind (h : Writes x tree path content) : Writes (x >>= f) tree path content := by
  obtain ⟨earlier, later, hattempts, hread⟩ := h
  exact ⟨earlier, later ++ (f (x.value tree)).attempts (x.after tree),
    by rw [attempts_bind, hattempts, List.append_assoc, List.cons_append], hread⟩

theorem bind_right (h : Writes (f (x.value tree)) (x.after tree) path content) :
    Writes (x >>= f) tree path content := by
  obtain ⟨earlier, later, hattempts, hread⟩ := h
  refine ⟨x.attempts tree ++ earlier, later, by rw [attempts_bind, hattempts, List.append_assoc], ?_⟩
  rwa [List.append_assoc, Attempt.replay_append]

end Writes

/-- A write that succeeds leaves its content. -/
theorem read_replay_write {tree : FileTree} {path : Path} {content : ByteArray}
    (h : (FileAccess.write path content : Recorded _).value tree = .ok ()) :
    (Attempt.replay tree [.write path content]).read path = .ok content := by
  have hcarried : (tree.settle (tree.write path content)).1 = .ok () := h
  show (tree.settle (tree.write path content)).2.read path = .ok content
  cases hwrite : tree.write path content with
  | ok after => exact FileTree.read_of_write hwrite
  | error fault => rw [hwrite] at hcarried; cases hcarried

theorem writes_write {tree : FileTree} {path : Path} {content : ByteArray}
    (h : (FileAccess.write path content : Recorded _).value tree = .ok ()) :
    Writes (FileAccess.write path content) tree path content :=
  ⟨[], [], rfl, read_replay_write h⟩

/-- A program that attempts nothing. -/
def ReadsOnly (x : Recorded α) : Prop := ∀ tree, x.attempts tree = []

namespace ReadsOnly

theorem after_eq {x : Recorded α} (h : ReadsOnly x) (tree : FileTree) : x.after tree = tree := by
  rw [after, h tree, Attempt.replay_nil]

theorem pure (a : α) : ReadsOnly (Pure.pure a) := fun _ => rfl

theorem bind {x : Recorded α} {f : α → Recorded β} (hx : ReadsOnly x) (hf : ∀ a, ReadsOnly (f a)) :
    ReadsOnly (x >>= f) := by
  intro tree
  rw [attempts_bind, hx tree, hf, List.nil_append]

theorem mapM {f : α → Recorded β} (h : ∀ a, ReadsOnly (f a)) (as : List α) :
    ReadsOnly (as.mapM f) := by
  induction as with
  | nil => exact pure []
  | cons a rest ih =>
    rw [List.mapM_cons]
    exact (h a).bind fun b => ih.bind fun bs => pure (b :: bs)

theorem value_mapM {f : α → Recorded β} (h : ∀ a, ReadsOnly (f a)) (as : List α) (tree : FileTree) :
    (as.mapM f).value tree = as.map fun a => (f a).value tree := by
  induction as with
  | nil => rfl
  | cons a rest ih =>
    rw [List.mapM_cons, value_bind, (h a).after_eq, value_bind, ih]
    rfl

end ReadsOnly
end Recorded

/-! ### The operations on files -/

namespace Files

open Recorded

theorem follows_isFile (p : Path) : Follows (isFile p) (isFile p) := fun _ => rfl

theorem follows_isDirectory (p : Path) : Follows (isDirectory p) (isDirectory p) := fun _ => rfl

theorem follows_readText (p : Path) : Follows (readText p) (readText p) :=
  .bind (fun _ => rfl) fun content => by cases content <;> exact .pure _

theorem follows_writeText (p : Path) (text : String) :
    Follows (writeText p text) (writeText p text) := fun _ => rfl

theorem follows_acceptDirectory (p : Path) (made : Except FileFault Unit) :
    Follows (acceptDirectory p made) (acceptDirectory p made) := by
  cases made with
  | ok => exact .pure _
  | error => exact .bind (follows_isDirectory p) fun _ => .pure _

theorem follows_makeUpward (paths : List Path) :
    Follows (makeUpward paths) (makeUpward paths) := by
  induction paths with
  | nil => exact .pure _
  | cons p above ih =>
    refine .bind (fun _ => rfl) fun made => ?_
    cases made with
    | ok => exact follows_acceptDirectory p _
    | error fault =>
      cases fault with
      | notFound =>
        refine .bind ih fun made => ?_
        cases made with
        | ok => exact .bind (fun _ => rfl) fun made => follows_acceptDirectory p made
        | error => exact .pure _
      | _ => exact follows_acceptDirectory p _

theorem follows_makeDirectories (p : Path) : Follows (makeDirectories p) (makeDirectories p) :=
  follows_makeUpward _

theorem follows_copy (source target : Path) : Follows (copy source target) (copy source target) := by
  refine .bind (fun _ => rfl) fun content => ?_
  cases content with
  | error => exact .pure _
  | ok =>
    refine .bind (fun _ => rfl) fun emptied => ?_
    cases emptied with
    | error => exact .pure _
    | ok =>
      refine .bind (fun _ => rfl) fun content => ?_
      cases content with
      | error => exact .pure _
      | ok => exact fun _ => rfl

theorem readsOnly_isFile (p : Path) : ReadsOnly (isFile p) := fun _ => rfl

theorem readsOnly_readText (p : Path) : ReadsOnly (readText p) :=
  .bind (fun _ => rfl) fun content => by cases content <;> exact .pure _

theorem value_readText (p : Path) (tree : FileTree) :
    (readText p : Recorded _).value tree = (tree.read p).bind textOf := by
  rw [readText, value_bind, value_read]
  cases tree.read p <;> rfl

/-! ### What the operations write -/

theorem writesOnly_acceptDirectory (p : Path) (made : Except FileFault Unit) :
    WritesOnly (acceptDirectory p made) fun _ _ => False := by
  cases made with
  | ok => exact .pure _
  | error => exact .bind (fun _ => id) (fun _ _ _ h => nomatch h) fun _ => .pure _

theorem writesOnly_makeUpward (paths : List Path) :
    WritesOnly (makeUpward paths) fun _ _ => False := by
  have hmake (p : Path) : WritesOnly (FileAccess.makeDirectory p) fun _ _ => False := by
    intro tree path content hwrite
    cases List.mem_singleton.mp hwrite
  induction paths with
  | nil => exact .pure _
  | cons p above ih =>
    refine .bind (fun _ => id) (hmake p) fun made => ?_
    cases made with
    | ok => exact writesOnly_acceptDirectory p _
    | error fault =>
      cases fault with
      | notFound =>
        refine .bind (fun _ => id) ih fun made => ?_
        cases made with
        | ok => exact .bind (fun _ => id) (hmake p) fun made => writesOnly_acceptDirectory p made
        | error => exact .pure _
      | _ => exact writesOnly_acceptDirectory p _

/-- To make directories writes no file. -/
theorem writesOnly_makeDirectories (p : Path) : WritesOnly (makeDirectories p) fun _ _ => False :=
  writesOnly_makeUpward _

/-- A copy writes to its target, and only if its source is a file. -/
theorem writesOnly_copy (source target : Path) :
    WritesOnly (copy source target) fun tree path =>
      path = target ∧ tree.kind? source = some .file := by
  have hread : WritesOnly (FileAccess.read source) fun _ path => path = target :=
    fun _ _ _ h => nomatch h
  have hwrite (content : ByteArray) :
      WritesOnly (FileAccess.write target content) fun _ path => path = target := by
    intro tree path new hmem
    cases List.mem_singleton.mp hmem
    rfl
  have htarget : WritesOnly (copy source target) fun _ path => path = target := by
    refine .bind (fun _ => id) hread fun content => ?_
    cases content with
    | error => exact .pure _
    | ok =>
      refine .bind (fun _ => id) (hwrite _) fun emptied => ?_
      cases emptied with
      | error => exact .pure _
      | ok =>
        refine .bind (fun _ => id) hread fun content => ?_
        cases content with
        | error => exact .pure _
        | ok => exact hwrite _
  intro tree path content hmem
  refine ⟨htarget tree path content hmem, ?_⟩
  cases hsource : tree.read source with
  | error fault => simp [copy, hsource] at hmem
  | ok old => exact (grows_after _ tree).kind? (FileTree.kind?_of_read hsource)

end Files
end CrossRef
