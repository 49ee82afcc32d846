import CrossRef.Proofs.Toml.Value
import CrossRef.Toml.Draft

/-!
Documents of headers and assignments with bare keys. A line that is read as a statement whatever
follows it is a statement of the document, and sections with different names and different keys in each
make up the table that one would expect.
-/
namespace CrossRef
namespace Toml

open Text

variable {cs ds rest : List Char} {c : Char} {fuel : Nat} {key name : String} {value : Toml}

/-! ### Bare keys -/

/-- A key that needs no quotes. -/
def IsBare (key : String) : Prop := key.toList ≠ [] ∧ ∀ c ∈ key.toList, isBareKeyChar c

instance : DecidablePred IsBare := fun key =>
  decidable_of_iff (!key.toList.isEmpty && key.toList.all isBareKeyChar) (by simp [IsBare])

theorem isBareKeyChar_ne {d : Char} (h : isBareKeyChar c) (hd : isBareKeyChar d = false) : c ≠ d := by
  rintro rfl
  simp [h] at hd

theorem isSolid_of_isBareKeyChar (h : isBareKeyChar c) : IsSolid c := by
  have hblank : isBlank c = false := by
    simp [isBlank, isBareKeyChar_ne h (d := ' ') (by decide),
      isBareKeyChar_ne h (d := '\t') (by decide)]
  exact ⟨isBareKeyChar_ne h (by decide), isBareKeyChar_ne h (by decide),
    isBareKeyChar_ne h (by decide), hblank⟩

/-- A bare key starts with one of its characters. -/
theorem IsBare.starts (h : IsBare key) : ∃ c cs, key.toList = c :: cs ∧ isBareKeyChar c := by
  obtain ⟨c, cs, heq⟩ := List.exists_cons_of_ne_nil h.1
  exact ⟨c, cs, heq, h.2 c (by simp [heq])⟩

theorem name?_bare (h : IsBare key) (hc : isBareKeyChar c = false) (rest : List Char) :
    name? (key.toList ++ c :: rest) = some (key, c :: rest) := by
  have htake : (key.toList ++ c :: rest).takeWhile isBareKeyChar = key.toList := by
    rw [List.takeWhile_append_of_pos h.2]
    simp [hc]
  obtain ⟨first, more, heq, hfirst⟩ := h.starts
  have hbasic := isBareKeyChar_ne hfirst (d := '"') (by decide)
  have hliteral := isBareKeyChar_ne hfirst (d := '\'') (by decide)
  have hempty : key.toList.isEmpty = false := by simp [heq]
  rw [name?.eq_def]
  split
  · simp_all
  · simp_all
  · simp only [htake, hempty]
    simp

/-- A key of one name, with at most a blank between it and what ends it. -/
theorem key?_bare (h : IsBare key) (hc : c = '=' ∨ c = ']') {blanks : List Char}
    (hblanks : blanks = [] ∨ blanks = [' ']) (rest : List Char) :
    key? (key.toList ++ (blanks ++ c :: rest)) = some (⟨[], key⟩, c :: rest) := by
  have hskip : skipBlanks (key.toList ++ (blanks ++ c :: rest)) =
      key.toList ++ (blanks ++ c :: rest) := by
    obtain ⟨first, more, heq, hfirst⟩ := h.starts
    rw [heq]
    exact skipBlanks_solid (isSolid_of_isBareKeyChar hfirst) _
  have hname : name? (key.toList ++ (blanks ++ c :: rest)) = some (key, blanks ++ c :: rest) := by
    rcases hblanks with rfl | rfl
    · exact name?_bare h (by rcases hc with rfl | rfl <;> decide) rest
    · exact name?_bare h (by decide) (c :: rest)
  have hend : skipBlanks (blanks ++ c :: rest) = c :: rest := by
    rcases hblanks with rfl | rfl <;> rcases hc with rfl | rfl <;> rfl
  rw [key?, hskip, hname]
  rcases hc with rfl | rfl <;> simp [keyFrom?, hend]

/-! ### Lines -/

/-- A line that is read as a statement, whatever the lines after it are. -/
structure Writes (line : List Char) (statement : Statement) : Prop where
  starts : ∃ c more, line = c :: more ∧ IsSolid c
  reads : ∀ rest, statement? (line ++ '\n' :: rest) = some (statement, '\n' :: rest)

theorem Writes.header (h : IsBare name) :
    Writes ('[' :: (name.toList ++ [']'])) (.header ⟨[], name⟩) where
  starts := ⟨_, _, rfl, by decide⟩
  reads rest := by
    have hkey := key?_bare h (.inr rfl) (.inl rfl) ('\n' :: rest)
    obtain ⟨first, more, heq, hfirst⟩ := h.starts
    have hne := isBareKeyChar_ne hfirst (d := '[') (by decide)
    rw [heq] at hkey ⊢
    simp only [List.cons_append, List.nil_append, List.append_assoc] at hkey ⊢
    simp [statement?, header?, hne, hkey]

theorem Writes.assignment (hkey : IsBare key) {written : List Char}
    (hstarts : ∃ c more, written = c :: more ∧ IsSolid c)
    (hvalue : ∀ rest, value? maxDepth (written ++ '\n' :: rest) = some (value, '\n' :: rest)) :
    Writes (key.toList ++ ([' ', '=', ' '] ++ written)) (.assignment ⟨[], key⟩ value) where
  starts := by
    obtain ⟨first, more, heq, hfirst⟩ := hkey.starts
    exact ⟨first, _, by rw [heq]; rfl, isSolid_of_isBareKeyChar hfirst⟩
  reads rest := by
    have hread := key?_bare hkey (.inl rfl) (.inr rfl) (' ' :: (written ++ '\n' :: rest))
    have hskip : skipBlanks (' ' :: (written ++ '\n' :: rest)) = written ++ '\n' :: rest := by
      obtain ⟨c, more, rfl, hsolid⟩ := hstarts
      exact skipBlanks_solid hsolid _
    obtain ⟨first, more, heq, hfirst⟩ := hkey.starts
    have hne := isBareKeyChar_ne hfirst (d := '[') (by decide)
    have hpair : pair? (value? maxDepth)
        (key.toList ++ ([' ', '=', ' '] ++ written) ++ '\n' :: rest) =
          some ((⟨[], key⟩, value), '\n' :: rest) := by
      simp only [List.append_assoc, List.cons_append, List.nil_append] at hread ⊢
      simp [pair?, hread, hskip, hvalue]
    rw [heq] at hpair ⊢
    simp only [List.cons_append, List.nil_append, List.append_assoc] at hpair ⊢
    simp [statement?, hne, hpair]

/-! ### Documents -/

/-- Lines with statements, and empty lines. -/
inductive Document : List Char → List Statement → Prop
  | nil : Document [] []
  | emptyLine {cs : List Char} {statements : List Statement} :
    Document cs statements → Document ('\n' :: cs) statements
  | line {line cs : List Char} {statement : Statement} {statements : List Statement} :
    Writes line statement → Document cs statements →
      Document (line ++ '\n' :: cs) (statement :: statements)

namespace Document

variable {statements more : List Statement}

theorem append (h : Document cs statements) (h' : Document ds more) :
    Document (cs ++ ds) (statements ++ more) := by
  induction h with
  | nil => exact h'
  | emptyLine _ ih => exact .emptyLine ih
  | line hline _ ih => simpa using Document.line hline ih

/-- The reader skips to the first statement and reads the statements from there. The fuel is enough,
because every statement takes a character. -/
theorem reads (h : Document cs statements) :
    ∃ start, skipLines? false cs = some start ∧ start.length ≤ cs.length ∧
      ∀ fuel, start.length ≤ fuel → statements? fuel start = some statements := by
  induction h with
  | nil => exact ⟨[], rfl, Nat.le_refl 0, fun fuel _ => by simp [statements?]⟩
  | emptyLine _ ih =>
    obtain ⟨start, hskip, hlength, hread⟩ := ih
    exact ⟨start, hskip, Nat.le_succ_of_le hlength, hread⟩
  | @line line cs statement statements hline _ ih =>
    obtain ⟨start, hskip, hlength, hread⟩ := ih
    obtain ⟨c, more, rfl, hsolid⟩ := hline.starts
    refine ⟨c :: (more ++ '\n' :: cs), skipLines?_solid hsolid _, Nat.le_refl _, fun fuel hfuel => ?_⟩
    obtain ⟨fuel, rfl⟩ : ∃ k, fuel = k + 1 :=
      ⟨fuel - 1, by simp only [List.length_append, List.length_cons] at hfuel; omega⟩
    have hend : endOfLine? ('\n' :: cs) = some start := hskip
    have hstart : start.length ≤ fuel := by
      simp only [List.length_append, List.length_cons] at hfuel
      omega
    have hstatement := hline.reads cs
    rw [List.cons_append] at hstatement
    simp [statements?, hstatement, hend, hread fuel hstart]

/-- The table of a document, which does not start with a byte order mark. -/
theorem read?_eq {document : String} (h : Document document.toList statements)
    (hmark : document.toList.head? ≠ some '\ufeff') : read? document = ofStatements? statements := by
  obtain ⟨start, hskip, -, hread⟩ := h.reads
  have hdrop : dropMark document.toList = document.toList := by
    unfold dropMark
    split <;> simp_all
  simp [read?, hdrop, hskip, hread (start.length + 1) (Nat.le_succ _)]

theorem ofLine {line : List Char} {statement : Statement} (h : Writes line statement) :
    Document (line ++ ['\n']) [statement] := .line h .nil

theorem headerLine (name : String) (h : IsBare name) :
    Document (Toml.headerLine name).toList [.header ⟨[], name⟩] := by
  simpa [Toml.headerLine] using ofLine (.header h)

theorem assignmentLine (key : String) (hkey : IsBare key) {written : String}
    (hstarts : ∃ c more, written.toList = c :: more ∧ IsSolid c)
    (hvalue : ∀ rest, value? maxDepth (written.toList ++ '\n' :: rest) = some (value, '\n' :: rest)) :
    Document (Toml.assignmentLine key written).toList [.assignment ⟨[], key⟩ value] := by
  simpa [Toml.assignmentLine] using ofLine (.assignment hkey hstarts hvalue)

theorem textLine (key : String) (hkey : IsBare key) (s : String) :
    Document (Toml.assignmentLine key (quote s)).toList [.assignment ⟨[], key⟩ (.text s)] := by
  refine assignmentLine key hkey ?_ fun rest => ?_
  · obtain ⟨first, more, heq, hstarts⟩ := quoteChars_starts s.toList
    exact ⟨first, more, by simp [quote, heq], (isSolid_of_isQuote hstarts).1⟩
  · simpa [quote] using value?_quote (c := '\n') (by decide) maxDepth s rest

theorem textsLine (key : String) (hkey : IsBare key) (texts : List String) :
    Document (Toml.assignmentLine key (quoteAll texts)).toList
      [.assignment ⟨[], key⟩ (.array (texts.map .text))] := by
  refine assignmentLine key hkey ?_ fun rest => value?_quoteAll texts ('\n' :: rest)
  obtain ⟨more, heq⟩ := quoteAll_starts texts
  exact ⟨'[', more, heq, by decide⟩

theorem boolLine (key : String) (hkey : IsBare key) (b : Bool) :
    Document (Toml.assignmentLine key (if b then "true" else "false")).toList
      [.assignment ⟨[], key⟩ (.bool b)] := by
  refine assignmentLine key hkey ?_ fun rest => value?_boolChars b rest
  cases b
  · exact ⟨_, _, rfl, by decide⟩
  · exact ⟨_, _, rfl, by decide⟩

end Document

/-! ### Sections -/

namespace Draft

variable {members : Members} {draft : Draft}

theorem lookup_eq_none (h : key ∉ members.map Prod.fst) : members.lookup key = none := by
  refine List.lookup_eq_none_iff.mpr fun member hmember => bne_iff_ne.mpr ?_
  rintro rfl
  exact h (List.mem_map_of_mem hmember)

theorem add?_new (h : key ∉ members.map Prod.fst) :
    add? key draft members = some (members ++ [(key, draft)]) := by
  simp [add?, lookup_eq_none h]

theorem replace_last {old : Draft} (h : key ∉ members.map Prod.fst) :
    replace key draft (members ++ [(key, old)]) = members ++ [(key, draft)] := by
  have hsame : replace key draft members = members := by
    refine (List.map_congr_left fun member hmember => ?_).trans (List.map_id members)
    have hne : member.1 ≠ key := fun heq => h (heq ▸ List.mem_map_of_mem hmember)
    simp [hne]
  have hlast : replace key draft (members ++ [(key, old)]) =
      replace key draft members ++ [(key, draft)] := by simp [replace]
  rw [hlast, hsame]

/-- A change of the table of the last header. -/
theorem reach?_last {change : Members → Option Members} {sub sub' : Members}
    (hname : name ∉ members.map Prod.fst) (h : change sub = some sub') :
    reach? change [name] (members ++ [(name, .table .header sub)]) =
      some (members ++ [(name, .table .header sub')]) := by
  have hlookup : (members ++ [(name, Draft.table .header sub)]).lookup name =
      some (.table .header sub) := by
    simp [List.lookup_append, lookup_eq_none hname]
  simp [reach?, hlookup, h, replace_last hname]

/-- Keys with values. -/
def closedAll (members : List (String × Toml)) : Members :=
  members.map fun member => (member.1, .closed member.2)

theorem toMembers_closedAll (members : List (String × Toml)) :
    toMembers (closedAll members) = members := by
  induction members with
  | nil => rfl
  | cons member members ih =>
    rw [closedAll, List.map_cons, toMembers, toValue]
    exact congrArg _ ih

end Draft

/-- Assignments of values to keys of one name. -/
def assignments (members : List (String × Toml)) : List Statement :=
  members.map fun member => .assignment ⟨[], member.1⟩ member.2

/-- A table under a header of its own. -/
structure Section where
  header : String
  members : List (String × Toml)

namespace Section

variable {before : Draft.Members} {tables : List Section}

def statements (table : Section) : List Statement :=
  .header ⟨[], table.header⟩ :: assignments table.members

def toDraft (table : Section) : String × Draft :=
  (table.header, .table .header (Draft.closedAll table.members))

def toMember (table : Section) : String × Toml := (table.header, .table table.members)

/-- The assignments under a header go to its table. -/
theorem assemble?_assignments (hname : name ∉ before.map Prod.fst) (sub : Draft.Members)
    (members : List (String × Toml)) (hkeys : (sub.map Prod.fst ++ members.map Prod.fst).Nodup)
    (rest : List Statement) :
    assemble? [name] (assignments members ++ rest) (before ++ [(name, .table .header sub)]) =
      assemble? [name] rest
        (before ++ [(name, .table .header (sub ++ Draft.closedAll members))]) := by
  induction members generalizing sub with
  | nil => simp [assignments, Draft.closedAll]
  | cons member members ih =>
    have hnew : member.1 ∉ sub.map Prod.fst := fun hmem =>
      (List.nodup_append.mp hkeys).2.2 member.1 hmem member.1 (by simp) rfl
    have hchange : Draft.assign? member.2 member.1 [] sub =
        some (sub ++ [(member.1, .closed member.2)]) := Draft.add?_new hnew
    have hnext := ih (sub ++ [(member.1, .closed member.2)]) (by simpa using hkeys)
    rw [assignments, List.map_cons, List.cons_append, assemble?, Draft.reach?_last hname hchange]
    simpa [assignments, Draft.closedAll] using hnext

/-- Sections add tables to what is there. -/
theorem assemble?_statements (here : List String) (before : Draft.Members)
    (hheaders : (before.map Prod.fst ++ tables.map header).Nodup)
    (hkeys : ∀ table ∈ tables, (table.members.map Prod.fst).Nodup) :
    assemble? here (tables.flatMap statements) before = some (before ++ tables.map toDraft) := by
  induction tables generalizing here before with
  | nil => simp [assemble?]
  | cons table tables ih =>
    have hname : table.header ∉ before.map Prod.fst := fun hmem =>
      (List.nodup_append.mp hheaders).2.2 table.header hmem table.header (by simp) rfl
    have hopen : Draft.reach? (Draft.openTable? table.header) [] before =
        some (before ++ [(table.header, .table .header [])]) := by
      simp [Draft.reach?, Draft.openTable?, Draft.lookup_eq_none hname, Draft.add?_new hname]
    have hassigned := assemble?_assignments hname [] table.members
      (by simpa using hkeys table (by simp)) (tables.flatMap statements)
    have hnext := ih [table.header] (before ++ [table.toDraft])
      (by simpa [toDraft] using hheaders) fun t ht => hkeys t (by simp [ht])
    rw [List.flatMap_cons, statements, List.cons_append, assemble?, hopen]
    simpa [toDraft] using hassigned.trans hnext

theorem toMembers_map_toDraft (tables : List Section) :
    Draft.toMembers (tables.map toDraft) = tables.map toMember := by
  induction tables with
  | nil => rfl
  | cons table tables ih =>
    rw [List.map_cons, toDraft, Draft.toMembers, Draft.toValue, Draft.toMembers_closedAll, ih]
    rfl

/-- Sections with different headers, and with different keys in each, give a table of their tables. -/
theorem ofStatements?_eq (hheaders : (tables.map header).Nodup)
    (hkeys : ∀ table ∈ tables, (table.members.map Prod.fst).Nodup) :
    ofStatements? (tables.flatMap statements) = some (.table (tables.map toMember)) := by
  rw [ofStatements?, assemble?_statements [] [] (by simpa using hheaders) hkeys, List.nil_append,
    Option.map_some, toMembers_map_toDraft]

end Section

end Toml
end CrossRef
