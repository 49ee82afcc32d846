import CrossRef.Proofs.Token.Written
import CrossRef.Markup.Html.Foreign

/-!
What a scan gives. Every scan takes something off the text, and the elements and comments that tree construction
makes of a token can be written and are read as the same again.
-/
namespace CrossRef
namespace Markup
namespace Html

open Text

variable {c : Char} {cs left rest : List Char} {inForeign inValue : Bool} {done : List (String × String)} {tagEnd : TagEnd}

/-! ### What is left -/

theorem scanAttributes_suffix {place : TagPlace} (h : scanAttributes place done cs = some tagEnd) :
    tagEnd.rest <:+ cs := by
  fun_induction scanAttributes place done cs with
  | case1 => cases h
  | _ =>
    first
    | exact Option.some_inj.mp h ▸ List.suffix_cons _ _
    | (rename_i ih
       exact (ih h).trans (List.suffix_cons _ _))

theorem scanTag_suffix {tag : Tag} (h : scanTag cs = some (tag, left)) : left <:+ cs := by
  simp only [scanTag] at h
  split at h
  · next hend =>
    obtain ⟨-, rfl⟩ := Prod.mk.inj (Option.some_inj.mp h)
    exact (scanAttributes_suffix hend).trans (List.drop_suffix _ _)
  · cases h

theorem scanCommentBody_suffix (cs : List Char) :
    (scanCommentBody cs).2 <:+ cs ∧ (scanCommentBody cs).1 <+: cs := by
  fun_induction scanCommentBody cs with
  | case7 c rest _ _ _ _ _ body left heq ih =>
    rw [heq] at ih
    exact ⟨ih.1.trans (List.suffix_cons _ _), List.cons_prefix_cons.mpr ⟨rfl, ih.2⟩⟩
  | case5 rest => exact ⟨⟨['-', '-', '>'], rfl⟩, List.nil_prefix⟩
  | case6 rest => exact ⟨⟨['-', '-', '!', '>'], rfl⟩, List.nil_prefix⟩
  | _ => simp

/-- The characters that a scan has taken off. -/
theorem scanBogus_suffix (cs : List Char) : (scanBogus cs).2 <:+ cs ∧ (scanBogus cs).1 <+: cs :=
  ⟨List.drop_suffix _ _, List.takeWhile_prefix _⟩

theorem scanComment_suffix (cs : List Char) : (scanComment cs).2 <:+ cs ∧ (scanComment cs).1 <+: cs := by
  unfold scanComment
  split
  · exact ⟨List.suffix_cons _ _, List.nil_prefix⟩
  · exact ⟨⟨['-', '>'], rfl⟩, List.nil_prefix⟩
  · exact scanCommentBody_suffix _

theorem scanDeclaration_suffix (inForeign : Bool) (cs : List Char) : (scanDeclaration inForeign cs).rest <:+ cs := by
  have hsection : ∀ rest, afterSectionOpening? cs = some rest → rest <:+ cs := by
    intro rest h
    unfold afterSectionOpening? at h
    split at h
    · exact Option.some_inj.mp h ▸ ⟨['[', 'C', 'D', 'A', 'T', 'A', '['], rfl⟩
    · cases h
  unfold scanDeclaration
  split
  · exact (scanComment_suffix _).1.trans ⟨['-', '-'], rfl⟩
  · split_ifs
    · exact (scanBogus_suffix cs).1
    · split
      · next heq => exact hsection _ heq
      · exact (scanBogus_suffix cs).1
    · exact (scanBogus_suffix cs).1

theorem scanAngle_suffix (inForeign : Bool) (cs : List Char) : (scanAngle inForeign cs).rest <:+ cs := by
  unfold scanAngle
  split
  · exact (scanDeclaration_suffix inForeign _).trans (List.suffix_cons _ _)
  · exact (scanBogus_suffix _).1
  · exact List.nil_suffix
  · exact ⟨['/', '>'], rfl⟩
  · split_ifs
    · cases hscan : scanTag _ with
      | none => exact List.nil_suffix
      | some scanned => exact (scanTag_suffix hscan).trans (List.suffix_cons _ _)
    · exact (scanBogus_suffix _).1.trans (List.suffix_cons _ _)
  · split_ifs
    · cases hscan : scanTag _ with
      | none => exact List.nil_suffix
      | some scanned => exact scanTag_suffix hscan
    · exact List.suffix_rfl
  · exact List.suffix_rfl

theorem drop_suffix_of_pos {n : Nat} (hn : 0 < n) (c : Char) (rest : List Char) : (c :: rest).drop n <:+ rest := by
  obtain ⟨n, rfl⟩ := Nat.exists_eq_succ_of_ne_zero hn.ne'
  exact List.drop_suffix n rest

theorem scanMarkup_suffix (inForeign : Bool) (c : Char) (rest : List Char) :
    (scanMarkup inForeign (c :: rest)).rest <:+ rest := by
  rw [scanMarkup]
  split_ifs with hangle hnull
  · exact scanAngle_suffix inForeign rest
  · exact List.suffix_rfl
  · refine drop_suffix_of_pos ?_ c rest
    rw [List.takeWhile_cons_of_pos (by simp [hangle, hnull])]
    exact Nat.succ_pos _

theorem scanRun_suffix (mode : ReadingMode) (shown run : List Char) (c : Char) (rest : List Char) :
    (scanRun mode shown run (c :: rest)).rest <:+ rest := by
  unfold scanRun
  split_ifs with hempty
  · exact scanMarkup_suffix false c rest
  · exact drop_suffix_of_pos (List.length_pos_iff.mpr (by simpa using hempty)) c rest

/-- Every scan takes something off the text. -/
theorem scan_suffix (mode : ReadingMode) (inForeign : Bool) (c : Char) (rest : List Char) :
    (scan mode inForeign (c :: rest)).rest <:+ rest := by
  cases mode with
  | markup => exact scanMarkup_suffix inForeign c rest
  | escapable label => exact scanRun_suffix _ _ _ c rest
  | raw label => exact scanRun_suffix _ _ _ c rest
  | script => exact scanRun_suffix _ _ _ c rest
  | plain => exact List.nil_suffix
  | «section» =>
    rw [scan]
    unfold scanSection
    split
    · exact List.nil_suffix
    · next heq =>
      obtain ⟨-, rfl⟩ := List.cons.inj heq
      exact ⟨[']', '>'], rfl⟩
    · next hend heq =>
      obtain ⟨rfl, rfl⟩ := List.cons.inj heq
      split_ifs with hnull
      · exact List.suffix_rfl
      · refine drop_suffix_of_pos (List.length_pos_iff.mpr ?_) _ _
        unfold sectionRun
        split
        · next heq => cases heq
        · next heq => exact absurd (List.cons.inj heq).2 (hend _ (List.cons.inj heq).1)
        · next heq =>
          obtain ⟨rfl, rfl⟩ := List.cons.inj heq
          simp [hnull]

/-! ### References -/

theorem charOfCode_ne_null (n : Nat) : charOfCode n ≠ '\x00' := by
  unfold charOfCode
  split_ifs with hinvalid hwindows
  · decide
  · have hall : '\x00' ∉ windowsChars := by decide
    cases hchar : windowsChars[n - 0x80]? with
    | none => decide
    | some c => exact fun heq => hall (heq ▸ List.mem_of_getElem? hchar)
  · intro heq
    have hvalid : n.isValidChar := by
      simp only [not_or, not_and, Nat.not_le] at hinvalid
      unfold Nat.isValidChar
      omega
    rw [Char.ofNat, dif_pos hvalid] at heq
    exact hinvalid (.inl (congrArg Char.toNat heq))

theorem bareNames_ne_null {name : String} (h : bareNames.lookup name = some c) : c ≠ '\x00' := by
  have hall : ∀ p ∈ bareNames, p.2 ≠ '\x00' := by decide
  obtain ⟨before, after, heq, -⟩ := List.lookup_eq_some_iff.mp h
  exact hall (name, c) (by simp [heq])

/-- No reference stands for a null character. -/
theorem null_not_mem_reference {reading : Reading} (h : reference? inValue cs = some reading) :
    '\x00' ∉ reading.chars := by
  have hdigits : ∀ {base digit? before cs}, numericDigits base digit? before cs = some reading →
      '\x00' ∉ reading.chars := by
    intro base digit? before cs h
    simp only [numericDigits] at h
    split_ifs at h
    all_goals
      obtain rfl := Option.some_inj.mp h
      simpa using (charOfCode_ne_null _).symm
  have hbare : ∀ {run n}, barePart? run n = some reading → '\x00' ∉ reading.chars := by
    intro run n h
    induction n with
    | zero => cases h
    | succ n ih =>
      rw [barePart?] at h
      split at h
      · next hlookup =>
        obtain rfl := Option.some_inj.mp h
        simpa using (bareNames_ne_null hlookup).symm
      · exact ih h
  have hclosed : ∀ {name chars}, namedChars? name = some chars → '\x00' ∉ chars := by
    intro name chars h
    unfold namedChars? at h
    split at h
    · next hlookup =>
      obtain rfl := Option.some_inj.mp h
      simpa using (bareNames_ne_null hlookup).symm
    · obtain ⟨item, -, hitem⟩ := List.exists_of_findSome?_eq_some h
      split at hitem
      · split_ifs at hitem
        obtain rfl := Option.some_inj.mp hitem
        intro hmem
        obtain ⟨code, -, hcode⟩ := List.mem_map.mp hmem
        exact charOfCode_ne_null _ hcode
      · cases hitem
  unfold reference? at h
  split at h
  · unfold numeric? at h
    split at h <;> exact hdigits h
  · simp only [named?] at h
    split at h
    · next hchars =>
      obtain rfl := Option.some_inj.mp h
      split_ifs at hchars
      exact hclosed hchars
    · split at h
      · cases h
      · next hpart =>
        split_ifs at h
        exact hbare (hpart.trans h)

theorem null_not_mem_expand (h : '\x00' ∉ cs) : '\x00' ∉ expand inValue cs := by
  rw [expand]
  generalize 0 = skip
  fun_induction expandFrom inValue skip cs with
  | case1 => simp
  | case2 skip c rest ih => exact ih (List.not_mem_of_not_mem_cons h)
  | case3 rest reading hreference ih =>
    rw [List.mem_append, not_or]
    exact ⟨null_not_mem_reference hreference, ih (List.not_mem_of_not_mem_cons h)⟩
  | case4 rest hreference ih => simpa using ih (List.not_mem_of_not_mem_cons h)
  | case5 c rest hc ih =>
    rw [List.mem_cons, not_or]
    exact ⟨List.ne_of_not_mem_cons h, ih (List.not_mem_of_not_mem_cons h)⟩

/-! ### Attributes -/

/-- Is the text read as the name of an attribute, in small letters? -/
def IsReadName (name : List Char) : Prop := isAttributeName name ∧ name.map asciiLower = name

/-- Attributes as they are read: no two have the same name, and no value has a null character. -/
structure ReadAttributes (attributes : List (String × String)) : Prop where
  names : ∀ a ∈ attributes, IsReadName a.1.toList
  values : ∀ a ∈ attributes, '\x00' ∉ a.2.toList
  distinct : (attributes.map Prod.fst).Nodup

/-- The name that is being read is as names are. -/
def TagPlace.Fits : TagPlace → Prop
  | .gap | .slash => True
  | .name label | .afterName label | .beforeValue label | .quoted _ label _ | .unquoted label _ =>
    IsReadName label.reverse

theorem nameChar_fits (hends : endsTagName c = false) (hreturn : c ≠ '\r') :
    endsTagName (nameChar c) = false ∧ nameChar c ≠ '\r' ∧ nameChar c ≠ '\x00' ∧
      asciiLower (nameChar c) = nameChar c ∧ (nameChar c = '=' → c = '=') := by
  unfold nameChar showNull
  by_cases hcapital : 'A' ≤ c ∧ c ≤ 'Z'
  · have hall : ∀ n < 91, 65 ≤ n → endsTagName (asciiLower (Char.ofNat n)) = false ∧ asciiLower (Char.ofNat n) ≠ '\r' ∧
        asciiLower (Char.ofNat n) ≠ '\x00' ∧ asciiLower (asciiLower (Char.ofNat n)) = asciiLower (Char.ofNat n) ∧
        asciiLower (Char.ofNat n) ≠ '=' := by decide
    have hlt : c.toNat < 91 := Nat.lt_succ_of_le hcapital.2
    have hchar := hall c.toNat hlt hcapital.1
    rw [Char.ofNat_toNat] at hchar
    rw [if_neg hchar.2.2.1]
    exact ⟨hchar.1, hchar.2.1, hchar.2.2.1, hchar.2.2.2.1, fun heq => absurd heq hchar.2.2.2.2⟩
  · have hsame : asciiLower c = c := if_neg hcapital
    rw [hsame]
    split_ifs with hnull
    · exact ⟨by decide, by decide, by decide, by decide, fun heq => absurd heq (by decide)⟩
    · exact ⟨hends, hreturn, hnull, hsame, id⟩

theorem isReadName_start (hends : endsTagName c = false) (hreturn : c ≠ '\r') : IsReadName [nameChar c] := by
  obtain ⟨hends', hreturn', hnull, hlower, -⟩ := nameChar_fits hends hreturn
  refine ⟨isAttributeName_iff.mpr ⟨⟨_, [], rfl, by simp⟩, ?_⟩, by rw [List.map_singleton, hlower]⟩
  simpa using ⟨hends', hreturn', hnull⟩

theorem IsReadName.add {label : List Char} (h : IsReadName label.reverse) (hends : endsTagName c = false)
    (hreturn : c ≠ '\r') (hequals : c ≠ '=') : IsReadName (nameChar c :: label).reverse := by
  obtain ⟨hname, hsmall⟩ := h
  obtain ⟨hends', hreturn', hnull, hlower, hequals'⟩ := nameChar_fits hends hreturn
  obtain ⟨⟨first, rest, heq, hrest⟩, hall⟩ := isAttributeName_iff.mp hname
  rw [List.reverse_cons]
  refine ⟨isAttributeName_iff.mpr ⟨⟨first, rest ++ [nameChar c], by rw [heq]; rfl, ?_⟩, ?_⟩, ?_⟩
  · rw [List.mem_append, List.mem_singleton, not_or]
    exact ⟨hrest, fun heq => hequals (hequals' heq.symm)⟩
  · intro d hd
    rcases List.mem_append.mp hd with hd | hd
    · exact hall d hd
    · rw [List.mem_singleton.mp hd]
      exact ⟨hends', hreturn', hnull⟩
  · rw [List.map_append, hsmall, List.map_singleton, hlower]

theorem ReadAttributes.add (h : ReadAttributes done) {label : List Char} (hlabel : IsReadName label.reverse)
    (value : List Char) : ReadAttributes (addAttribute done label value) := by
  unfold addAttribute
  dsimp only
  split_ifs with hold
  · exact h
  · have hnew : String.ofList label.reverse ∉ done.map Prod.fst := by
      intro hmem
      obtain ⟨a, ha, heq⟩ := List.mem_map.mp hmem
      have hnone := List.lookup_eq_none_iff.mp (Option.not_isSome_iff_eq_none.mp hold) a ha
      simp [heq] at hnone
    have hvalue : '\x00' ∉ expand true (value.reverse.map showNull) := by
      refine null_not_mem_expand fun hmem => ?_
      obtain ⟨c, -, hc⟩ := List.mem_map.mp hmem
      unfold showNull at hc
      split_ifs at hc with hnull
      · exact absurd hc (by decide)
      · exact hnull hc
    refine ⟨?_, ?_, ?_⟩
    · rw [List.forall_mem_append, List.forall_mem_singleton]
      exact ⟨h.names, by rwa [String.toList_ofList]⟩
    · rw [List.forall_mem_append, List.forall_mem_singleton]
      exact ⟨h.values, by rwa [String.toList_ofList]⟩
    · rw [List.map_append, List.map_singleton, List.nodup_append]
      refine ⟨h.distinct, by simp, fun a ha b hb heq => hnew ?_⟩
      rwa [heq, List.mem_singleton.mp hb] at ha

theorem readAttributes_nil : ReadAttributes [] := ⟨by simp, by simp, by simp⟩

theorem readAttributes_scanAttributes {place : TagPlace} (hplace : place.Fits) (hdone : ReadAttributes done)
    (hreturn : '\r' ∉ cs) (h : scanAttributes place done cs = some tagEnd) : ReadAttributes tagEnd.attributes := by
  have hends : ∀ {c : Char}, ¬ isTagBlank c = true → ¬ c = '/' → ¬ c = '>' → endsTagName c = false :=
    fun hblank hslash hangle => endsTagName_eq_false.mpr ⟨by simpa using hblank, hslash, hangle⟩
  fun_induction scanAttributes place done cs with
  | case1 => cases h
  | _ =>
    -- the tag ends, or reading goes on with the attributes as they are or with one more
    first
    | exact Option.some_inj.mp h ▸ hdone
    | exact Option.some_inj.mp h ▸ hdone.add hplace _
    | (rename_i ih
       have hrest := List.not_mem_of_not_mem_cons hreturn
       have hne := (List.ne_of_not_mem_cons hreturn).symm
       first
       | exact ih trivial hdone hrest h
       | exact ih hplace hdone hrest h
       | exact ih trivial (hdone.add hplace _) hrest h
       | exact ih (isReadName_start (hends ‹_› ‹_› ‹_›) hne) hdone hrest h
       | exact ih (isReadName_start (hends ‹_› ‹_› ‹_›) hne) (hdone.add hplace _) hrest h
       | exact ih (hplace.add (hends ‹_› ‹_› ‹_›) hne ‹_›) hdone hrest h)

/-! ### Tags -/

/-- A tag as it is read. -/
structure IsReadTag (tag : Tag) : Prop where
  label : isTagName tag.label.toList
  small : asciiLowercase tag.label = tag.label
  attributes : ReadAttributes tag.attributes

theorem isAsciiLetter_nameChar (h : isAsciiLetter c) : isAsciiLetter (nameChar c) := by
  have hall : ∀ n < 123, isAsciiLetter (Char.ofNat n) → isAsciiLetter (nameChar (Char.ofNat n)) := by decide
  have hlt : c.toNat < 123 := by
    simp only [isAsciiLetter, Bool.or_eq_true, Bool.and_eq_true, decide_eq_true_eq] at h
    rcases h with h | h
    · exact Nat.lt_succ_of_le h.2
    · exact (Nat.lt_succ_of_le h.2).trans (by decide : 'Z'.toNat + 1 < 123)
  simpa using hall c.toNat hlt (by simpa using h)

theorem not_endsTagName_of_letter (h : isAsciiLetter c) : endsTagName c = false := by
  refine Bool.eq_false_iff.mpr fun hends => ?_
  simp only [endsTagName, isTagBlank, Bool.or_eq_true, decide_eq_true_eq] at hends
  rcases hends with (((((rfl | rfl) | rfl) | rfl) | rfl) | rfl) <;> exact absurd h (by decide)

theorem isReadTag_scanTag {tag : Tag} (hletter : isAsciiLetter c) (hreturn : '\r' ∉ c :: rest)
    (h : scanTag (c :: rest) = some (tag, left)) : IsReadTag tag := by
  simp only [scanTag] at h
  split at h
  · next hend =>
    obtain ⟨rfl, -⟩ := Prod.mk.inj (Option.some_inj.mp h)
    have hname : ∀ d ∈ (c :: rest).takeWhile (fun c => !endsTagName c), endsTagName d = false ∧ d ≠ '\r' := fun d hd =>
      ⟨by simpa using List.mem_takeWhile_imp hd, fun heq => hreturn (heq ▸ (List.takeWhile_prefix _).subset hd)⟩
    have hfirst : endsTagName c = false := not_endsTagName_of_letter hletter
    have hattributes := readAttributes_scanAttributes (show TagPlace.gap.Fits from trivial) readAttributes_nil
      (fun hmem => hreturn ((List.drop_suffix _ _).subset hmem)) hend
    refine ⟨?_, ?_, hattributes⟩
    · rw [String.toList_ofList]
      refine isTagName_iff.mpr ⟨?_, ?_⟩
      · rw [List.takeWhile_cons_of_pos (by simp [hfirst])]
        exact ⟨_, _, rfl, isAsciiLetter_nameChar hletter⟩
      · intro d hd
        obtain ⟨e, he, rfl⟩ := List.mem_map.mp hd
        obtain ⟨hends, hreturn', hnull, -⟩ := nameChar_fits (hname e he).1 (hname e he).2
        exact ⟨hends, hreturn', hnull⟩
    · rw [asciiLowercase, String.toList_ofList, List.map_map]
      congr 1
      exact List.map_congr_left fun d hd => (nameChar_fits (hname d hd).1 (hname d hd).2).2.2.2.1
  · cases h

/-! ### Elements -/

theorem respell_cases (spellings : List String) (label : String) :
    respell spellings label = label ∨ respell spellings label ∈ spellings ∧
      asciiLowercase (respell spellings label) = label := by
  unfold respell
  cases hfound : spellings.find? fun s => asciiLowercase s = label with
  | none => exact .inl rfl
  | some s =>
    have hspelled := List.find?_some hfound
    exact .inr ⟨List.mem_of_find?_eq_some hfound, of_decide_eq_true hspelled⟩

/-- The names that have a vocabulary of their own in foreign elements. -/
def foreignAttributes : List String :=
  ["xlink:actuate", "xlink:arcrole", "xlink:href", "xlink:role", "xlink:show", "xlink:title", "xlink:type", "xml:base",
    "xml:lang", "xml:space", "xmlns", "xmlns:xlink"]

theorem foreignAttributeName_cases (vocabulary : Vocabulary) (label : String) : label ∈ foreignAttributes ∨
    foreignAttributeName vocabulary label = ⟨.plain, label⟩ ∨
      ∃ spelling ∈ svgAttributes ++ mathAttributes, foreignAttributeName vocabulary label = ⟨.plain, spelling⟩ ∧
        asciiLowercase spelling = label := by
  have hspelled : ∀ spellings, (∀ s ∈ spellings, s ∈ svgAttributes ++ mathAttributes) →
      (⟨.plain, respell spellings label⟩ : Name) = ⟨.plain, label⟩ ∨
        ∃ spelling ∈ svgAttributes ++ mathAttributes, (⟨.plain, respell spellings label⟩ : Name) = ⟨.plain, spelling⟩ ∧
          asciiLowercase spelling = label := by
    intro spellings hall
    rcases respell_cases spellings label with hsame | ⟨hmem, hsmall⟩
    · exact .inl (by rw [hsame])
    · exact .inr ⟨_, hall _ hmem, rfl, hsmall⟩
  unfold foreignAttributeName
  split
  case h_13 =>
    split
    · exact .inr (hspelled _ fun s hs => List.mem_append_left _ hs)
    · exact .inr (hspelled _ fun s hs => List.mem_append_right _ hs)
    · exact .inr (.inl rfl)
  all_goals exact .inl (by simp [foreignAttributes])

theorem attributeLabel_foreignAttributeName {label : String} (h : label ∈ foreignAttributes) (vocabulary : Vocabulary) :
    attributeLabel (foreignAttributeName vocabulary label) = label ∧
      ¬ "id".toList.isPrefixOf (foreignAttributeName vocabulary label).label.toList := by
  have hall : ∀ label ∈ foreignAttributes, attributeLabel (foreignAttributeName .html label) = label ∧
      ¬ "id".toList.isPrefixOf (foreignAttributeName .html label).label.toList := by decide
  have hsame : foreignAttributeName vocabulary label = foreignAttributeName .html label := by
    simp only [foreignAttributes, List.mem_cons, List.not_mem_nil, or_false] at h
    rcases h with rfl | rfl | rfl | rfl | rfl | rfl | rfl | rfl | rfl | rfl | rfl | rfl <;> rfl
  rw [hsame]
  exact hall label h

/-- The vocabulary of an attribute changes the name that it is written with in nothing but capitals. -/
theorem attributeIn_legible {label : String} (h : IsReadName label.toList) {vocabulary : Vocabulary} {name : Name}
    (hname : name = ⟨.plain, label⟩ ∨ name = foreignAttributeName vocabulary label) :
    isAttributeName (attributeLabel name).toList ∧ asciiLowercase (attributeLabel name) = label ∧
      ("id".toList.isPrefixOf name.label.toList → name.vocabulary = .plain) := by
  have hsmall : asciiLowercase label = label := by rw [asciiLowercase, h.2, String.ofList_toList]
  have hplain : name = ⟨.plain, label⟩ → isAttributeName (attributeLabel name).toList ∧
      asciiLowercase (attributeLabel name) = label ∧
        ("id".toList.isPrefixOf name.label.toList → name.vocabulary = .plain) := by
    rintro rfl
    exact ⟨h.1, hsmall, fun _ => rfl⟩
  rcases hname with rfl | rfl
  · exact hplain rfl
  · rcases foreignAttributeName_cases vocabulary label with hforeign | hsame | ⟨spelling, hmem, heq, hspelling⟩
    · obtain ⟨hlabel, hid⟩ := attributeLabel_foreignAttributeName hforeign vocabulary
      rw [hlabel]
      exact ⟨h.1, hsmall, fun hprefix => absurd hprefix hid⟩
    · exact hplain hsame
    · have hall : ∀ s ∈ svgAttributes ++ mathAttributes, isAttributeName s.toList := by decide +kernel
      rw [heq]
      exact ⟨hall spelling hmem, hspelling, fun _ => rfl⟩

/-- What a tag makes can be written and is read as the same tag again. -/
theorem IsReadTag.legible {tag : Tag} (h : IsReadTag tag) (vocabulary : Vocabulary) :
    LegibleTag ⟨vocabulary, foreignElementLabel vocabulary tag.label⟩ (tag.attributesIn vocabulary) := by
  have hattribute : ∀ a ∈ tag.attributesIn vocabulary, ∃ label, (label, a.value) ∈ tag.attributes ∧
      (a.name = ⟨.plain, label⟩ ∨ a.name = foreignAttributeName vocabulary label) := by
    intro a ha
    obtain ⟨⟨label, value⟩, hmem, rfl⟩ := List.mem_map.mp ha
    cases vocabulary <;> exact ⟨label, hmem, by simp⟩
  refine ⟨?_, ?_, ?_, ?_, ?_⟩
  · rcases respell_cases svgElements tag.label with hsame | ⟨hmem, -⟩
    · rw [foreignElementLabel, hsame, ite_self]
      exact h.label
    · have hall : ∀ s ∈ svgElements, isTagName s.toList := by decide +kernel
      rw [foreignElementLabel]
      split_ifs
      · exact hall _ hmem
      · exact h.label
  · intro a ha
    obtain ⟨label, hmem, hname⟩ := hattribute a ha
    exact (attributeIn_legible (h.attributes.names _ hmem) hname).1
  · intro hhtml a ha
    obtain ⟨⟨label, value⟩, hmem, rfl⟩ := List.mem_map.mp ha
    obtain rfl : vocabulary = .html := hhtml
    have hsmall := (h.attributes.names _ hmem).2
    exact ⟨rfl, by rw [asciiLowercase, hsmall, String.ofList_toList]⟩
  · have hlabels : (tag.attributesIn vocabulary).map (fun a => asciiLowercase (attributeLabel a.name)) =
        tag.attributes.map Prod.fst := by
      rw [Tag.attributesIn, List.map_map]
      refine List.map_congr_left fun a ha => ?_
      have hname := h.attributes.names a ha
      cases vocabulary
      case mathml => exact (attributeIn_legible hname (.inr rfl)).2.1
      case svg => exact (attributeIn_legible hname (.inr rfl)).2.1
      all_goals exact (@attributeIn_legible _ hname .html _ (.inl rfl)).2.1
    rw [hlabels]
    exact h.attributes.distinct
  · intro a ha hid
    obtain ⟨label, hmem, hname⟩ := hattribute a ha
    exact ⟨(attributeIn_legible (h.attributes.names _ hmem) hname).2.2 hid, h.attributes.values _ hmem⟩

/-! ### Comments -/

/-- Does a comment with this text last to the end of the text? -/
def IsCommentText (text : List Char) : Prop :=
  ¬ ['-', '-', '>'] <:+: text ∧ ¬ ['-', '-', '!', '>'] <:+: text ∧ ¬ ['>'] <+: text ∧ ¬ ['-', '>'] <+: text

theorem scanCommentBody_cons (h : c = '-' → ¬ ['-', '>'] <+: rest ∧ ¬ ['-', '!', '>'] <+: rest ∧ 2 < rest.length) :
    scanCommentBody (c :: rest) = (c :: (scanCommentBody rest).1, (scanCommentBody rest).2) := by
  rw [scanCommentBody.eq_def]
  split <;> simp_all

theorem scanCommentBody_text (h : ¬ ['-', '-', '>'] <:+: cs) (h' : ¬ ['-', '-', '!', '>'] <:+: cs) (rest : List Char) :
    scanCommentBody (cs ++ ['-', '-', '>'] ++ rest) = (cs, rest) := by
  induction cs with
  | nil => rfl
  | cons c cs ih =>
    have hrest := ih (fun hin => h (hin.trans (List.suffix_cons _ _).isInfix))
      (fun hin => h' (hin.trans (List.suffix_cons _ _).isInfix))
    rw [List.cons_append, List.cons_append, scanCommentBody_cons, hrest]
    rintro rfl
    have hends : ¬ ['-', '>'] <+: cs := fun hin =>
      h (List.IsPrefix.isInfix (List.cons_prefix_cons.mpr ⟨rfl, hin⟩))
    have hbangs : ¬ ['-', '!', '>'] <+: cs := fun hin =>
      h' (List.IsPrefix.isInfix (List.cons_prefix_cons.mpr ⟨rfl, hin⟩))
    refine ⟨?_, ?_, by simp; omega⟩
    · rcases cs with _ | ⟨x, _ | ⟨y, cs⟩⟩ <;> simp_all
      assumption
    · rcases cs with _ | ⟨x, _ | ⟨y, _ | ⟨z, cs⟩⟩⟩ <;> simp_all
      assumption

/-- Text without a closing bracket. -/
theorem isCommentText_of_not_mem (h : '>' ∉ cs) : IsCommentText cs :=
  ⟨fun hin => h (hin.subset (by simp)), fun hin => h (hin.subset (by simp)), fun hin => h (hin.subset (by simp)),
    fun hin => h (hin.subset (by simp))⟩

theorem scanComment_of_not_prefixed (h : ¬ ['>'] <+: cs) (h' : ¬ ['-', '>'] <+: cs) : scanComment cs = scanCommentBody cs := by
  unfold scanComment
  split <;> simp_all

theorem scanComment_text (h : IsCommentText cs) (rest : List Char) :
    scanComment (cs ++ ['-', '-', '>'] ++ rest) = (cs, rest) := by
  obtain ⟨hend, hbang, hangle, hdash⟩ := h
  rw [scanComment_of_not_prefixed, scanCommentBody_text hend hbang]
  · rcases cs with _ | ⟨x, cs⟩ <;> simp_all
  · rcases cs with _ | ⟨x, _ | ⟨y, cs⟩⟩ <;> simp_all
    assumption

theorem not_infix_scanCommentBody (cs : List Char) :
    ¬ ['-', '-', '>'] <:+: (scanCommentBody cs).1 ∧ ¬ ['-', '-', '!', '>'] <:+: (scanCommentBody cs).1 := by
  fun_induction scanCommentBody cs with
  | case7 c rest _ _ _ hend hbang body left heq ih =>
    rw [heq] at ih
    have hprefix : body <+: rest := by
      have hsuffix := (scanCommentBody_suffix rest).2
      rwa [heq] at hsuffix
    refine ⟨fun hin => ?_, fun hin => ?_⟩
    · rcases List.infix_cons_iff.mp hin with hin | hin
      · obtain ⟨hc, hin⟩ := List.cons_prefix_cons.mp hin
        obtain ⟨more, hmore⟩ := hin.trans hprefix
        exact hend more hc.symm hmore.symm
      · exact ih.1 hin
    · rcases List.infix_cons_iff.mp hin with hin | hin
      · obtain ⟨hc, hin⟩ := List.cons_prefix_cons.mp hin
        obtain ⟨more, hmore⟩ := hin.trans hprefix
        exact hbang more hc.symm hmore.symm
      · exact ih.2 hin
  | _ => simp

theorem isCommentText_scanComment (cs : List Char) : IsCommentText (scanComment cs).1 := by
  by_cases hangle : ['>'] <+: cs
  · obtain ⟨rest, rfl⟩ := hangle
    exact isCommentText_of_not_mem (by simp [scanComment])
  by_cases hdash : ['-', '>'] <+: cs
  · obtain ⟨rest, rfl⟩ := hdash
    exact isCommentText_of_not_mem (by simp [scanComment])
  rw [scanComment_of_not_prefixed hangle hdash]
  obtain ⟨hend, hbang⟩ := not_infix_scanCommentBody cs
  have hprefix := (scanCommentBody_suffix cs).2
  exact ⟨hend, hbang, fun hin => hangle (hin.trans hprefix), fun hin => hdash (hin.trans hprefix)⟩

/-- Only null characters are shown by another one. -/
theorem eq_of_map_showNull {marks : List Char} (hmarks : replacementChar ∉ marks)
    (h : cs.map showNull = marks) : cs = marks := by
  rw [← h]
  refine (List.map_id' cs).symm.trans (List.map_congr_left fun c hc => ?_)
  have hmem : showNull c ∈ marks := h ▸ List.mem_map_of_mem hc
  unfold showNull at hmem ⊢
  split_ifs at hmem ⊢
  · exact absurd hmem hmarks
  · rfl

theorem IsCommentText.map_showNull (h : IsCommentText cs) : IsCommentText (cs.map showNull) := by
  obtain ⟨hend, hbang, hangle, hdash⟩ := h
  refine ⟨fun hin => ?_, fun hin => ?_, fun hin => ?_, fun hin => ?_⟩
  · obtain ⟨marks, hmarks, heq⟩ := List.infix_map_iff.mp hin
    exact hend (eq_of_map_showNull (by decide) heq.symm ▸ hmarks)
  · obtain ⟨marks, hmarks, heq⟩ := List.infix_map_iff.mp hin
    exact hbang (eq_of_map_showNull (by decide) heq.symm ▸ hmarks)
  · obtain ⟨marks, hmarks, heq⟩ := List.prefix_map_iff.mp hin
    exact hangle (eq_of_map_showNull (by decide) heq.symm ▸ hmarks)
  · obtain ⟨marks, hmarks, heq⟩ := List.prefix_map_iff.mp hin
    exact hdash (eq_of_map_showNull (by decide) heq.symm ▸ hmarks)

theorem legible_comment (h : IsCommentText cs) (hreturn : '\r' ∉ cs) :
    Legible (.comment (String.ofList (cs.map showNull))) := by
  refine ⟨?_, fun rest => ?_⟩
  · rw [String.toList_ofList]
    intro hmem
    obtain ⟨c, hc, heq⟩ := List.mem_map.mp hmem
    unfold showNull at heq
    split_ifs at heq
    · exact absurd heq (by decide)
    · exact hreturn (heq ▸ hc)
  · rw [String.toList_ofList]
    exact scanComment_text h.map_showNull rest

/-! ### Tokens -/

/-- A token as it is read. -/
def IsReadToken : Token → Prop
  | .opening tag => IsReadTag tag
  | .comment text => Legible (.comment text)
  | _ => True

/-- What a scan gives, if it gives anything, is a token as tokens are read. -/
def Scan.IsRead (s : Scan) : Prop := ∀ token ∈ s.token, IsReadToken token

theorem Scan.IsRead.of_eq {s : Scan} {token : Token} (h : s.token = some token) (htoken : IsReadToken token) : s.IsRead :=
  fun token' htoken' => by
    obtain rfl := Option.some_inj.mp (h.symm.trans htoken')
    exact htoken

theorem Scan.IsRead.of_none {s : Scan} (h : s.token = none) : s.IsRead := fun token htoken => by simp [h] at htoken

theorem isRead_ofComment {body : List Char × List Char} (h : IsCommentText body.1) (hreturn : '\r' ∉ body.1) :
    (Scan.ofComment body).IsRead := Scan.IsRead.of_eq rfl (legible_comment h hreturn)

theorem isRead_bogus (hreturn : '\r' ∉ cs) : (Scan.ofComment (scanBogus cs)).IsRead := by
  refine isRead_ofComment (isCommentText_of_not_mem fun hmem => ?_) fun hmem =>
    hreturn ((scanBogus_suffix cs).2.subset hmem)
  simpa using List.mem_takeWhile_imp hmem

theorem isRead_scanDeclaration (inForeign : Bool) (hreturn : '\r' ∉ cs) : (scanDeclaration inForeign cs).IsRead := by
  unfold scanDeclaration
  split
  · next rest =>
    have hrest : '\r' ∉ rest := fun hmem => hreturn (by simp [hmem])
    exact isRead_ofComment (isCommentText_scanComment rest) fun hmem => hrest ((scanComment_suffix rest).2.subset hmem)
  · split_ifs
    · exact .of_eq rfl trivial
    · split
      · exact .of_none rfl
      · exact isRead_bogus hreturn
    · exact isRead_bogus hreturn

theorem isRead_scanAngle (inForeign : Bool) (hreturn : '\r' ∉ cs) : (scanAngle inForeign cs).IsRead := by
  unfold scanAngle
  split
  · exact isRead_scanDeclaration inForeign (List.not_mem_of_not_mem_cons hreturn)
  · exact isRead_bogus hreturn
  · exact .of_eq rfl trivial
  · exact .of_none rfl
  · split_ifs with hletter
    · split
      · exact .of_eq rfl trivial
      · exact .of_none rfl
    · exact isRead_bogus (List.not_mem_of_not_mem_cons hreturn)
  · split_ifs with hletter
    · split
      · next hscan => exact .of_eq rfl (isReadTag_scanTag hletter hreturn hscan)
      · exact .of_none rfl
    · exact .of_eq rfl trivial
  · exact .of_eq rfl trivial

theorem isRead_scanMarkup (inForeign : Bool) (hreturn : '\r' ∉ cs) : (scanMarkup inForeign cs).IsRead := by
  cases cs with
  | nil => exact .of_none rfl
  | cons c rest =>
    rw [scanMarkup]
    split_ifs
    · exact isRead_scanAngle inForeign (List.not_mem_of_not_mem_cons hreturn)
    · exact .of_eq rfl trivial
    · exact .of_eq rfl trivial

theorem isRead_scanRun (mode : ReadingMode) (shown run : List Char) (hreturn : '\r' ∉ cs) :
    (scanRun mode shown run cs).IsRead := by
  unfold scanRun
  split_ifs
  · exact isRead_scanMarkup false hreturn
  · exact .of_eq rfl trivial

/-- In a text with single line feeds as line ends every token is read as tokens are. -/
theorem isRead_scan (mode : ReadingMode) (inForeign : Bool) (hreturn : '\r' ∉ cs) :
    (scan mode inForeign cs).IsRead := by
  cases mode with
  | markup => exact isRead_scanMarkup inForeign hreturn
  | escapable label => exact isRead_scanRun _ _ _ hreturn
  | raw label => exact isRead_scanRun _ _ _ hreturn
  | script => exact isRead_scanRun _ _ _ hreturn
  | plain => exact .of_eq rfl trivial
  | «section» =>
    rw [scan]
    unfold scanSection
    split
    · exact .of_none rfl
    · exact .of_none rfl
    · split_ifs
      · exact .of_eq rfl trivial
      · exact .of_eq rfl trivial

end Html
end Markup
end CrossRef
