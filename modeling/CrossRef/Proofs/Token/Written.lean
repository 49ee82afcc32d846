import CrossRef.Proofs.Token.Plain
import CrossRef.Markup.Html.Writer
import Mathlib.Data.List.Basic

/-!
Scanning what the writer writes. Escaped text is read as it was before, and a tag is read with its name and
its attributes, whatever comes after it.
-/
namespace CrossRef
namespace Markup
namespace Html

open Text

variable {inValue : Bool} {c : Char} {cs rest : List Char}

/-! ### Line ends -/

theorem normalizeLines_cons (hc : c ≠ '\r') (rest : List Char) :
    normalizeLines (c :: rest) = c :: normalizeLines rest := by
  rw [normalizeLines.eq_def]
  split <;> simp_all

theorem normalizeLines_return (h : rest.head? ≠ some '\n') :
    normalizeLines ('\r' :: rest) = '\n' :: normalizeLines rest := by
  rw [normalizeLines.eq_def]
  split <;> simp_all [eq_comm]

/-- Line ends in two texts are those of the texts, unless one is cut in two. -/
theorem normalizeLines_append (h : rest.head? ≠ some '\n') (cs : List Char) :
    normalizeLines (cs ++ rest) = normalizeLines cs ++ normalizeLines rest := by
  fun_induction normalizeLines cs with
  | case1 => rfl
  | case2 cs ih => simpa [normalizeLines] using ih
  | case3 cs hcs ih =>
    have hhead : (cs ++ rest).head? ≠ some '\n' := by
      cases cs with
      | nil => exact h
      | cons c cs => exact fun heq => hcs cs (by simpa using heq)
    rw [List.cons_append, normalizeLines_return hhead, ih, List.cons_append]
  | case4 c cs hcs hc ih =>
    rw [List.cons_append, normalizeLines_cons (fun heq => hc heq), ih, List.cons_append]

theorem return_not_mem_normalizeLines (cs : List Char) : '\r' ∉ normalizeLines cs := by
  fun_induction normalizeLines cs <;> simp_all [eq_comm]

/-- No other characters come in with the line ends. -/
theorem mem_normalizeLines (h : c ∈ normalizeLines cs) : c ∈ cs ∨ c = '\n' := by
  fun_induction normalizeLines cs <;> grind

/-- A text up to a character that belongs to no line end, and what comes after it. -/
theorem normalizeLines_append_cons (hreturn : c ≠ '\r') (hfeed : c ≠ '\n') (cs rest : List Char) :
    normalizeLines (cs ++ c :: rest) = normalizeLines cs ++ c :: normalizeLines rest := by
  rw [normalizeLines_append (by simpa using hfeed), normalizeLines_cons hreturn]

/-! ### Escaped text -/

theorem escapeTextChar_of_plain (h : c ∉ ['&', '\u00a0', '<', '>']) : escapeTextChar c = [c] := by
  simp only [List.mem_cons, List.not_mem_nil, or_false, not_or] at h
  rw [escapeTextChar, if_neg h.1, if_neg h.2.1, if_neg h.2.2.1, if_neg h.2.2.2]

/-- A character of a value is written as it is, or as a reference by name. -/
theorem escapeValueChar_cases (c : Char) : escapeValueChar c = [c] ∧ c ≠ '&' ∧ c ≠ '"' ∨
    c ∈ ['&', '\u00a0', '<', '>', '"'] := by
  by_cases h : c ∈ ['&', '\u00a0', '<', '>', '"']
  · exact .inr h
  · simp only [List.mem_cons, List.not_mem_nil, or_false, not_or] at h
    refine .inl ⟨?_, h.1, h.2.2.2.2⟩
    rw [escapeValueChar, if_neg h.2.2.2.2, escapeTextChar_of_plain (by simp [h])]

/-- A reference that the writer makes is read. -/
theorem expandFrom_escapeValueChar (c : Char) (rest : List Char) :
    expandFrom true 0 (escapeValueChar c ++ rest) = c :: expandFrom true 0 rest := by
  rcases escapeValueChar_cases c with ⟨hsame, hamp, -⟩ | hspecial
  · rw [hsame, List.singleton_append, expandFrom, if_neg hamp]
  · have hnamed : ∀ name : List Char, ∀ d : Char,
        reference? true (name ++ ';' :: rest) = some ⟨[d], name.length + 1⟩ →
          expandFrom true 0 ('&' :: name ++ ';' :: rest) = d :: expandFrom true 0 rest := by
      intro name d hreference
      have hskip : ∀ more : List Char, expandFrom true more.length (more ++ rest) = expandFrom true 0 rest := by
        intro more
        induction more with
        | nil => rfl
        | cons x more ih => exact ih
      rw [List.cons_append, expandFrom, if_pos rfl, hreference]
      have hlength := hskip (name ++ [';'])
      rw [List.length_append, List.append_assoc] at hlength
      exact congrArg (d :: ·) hlength
    simp only [List.mem_cons, List.not_mem_nil, or_false] at hspecial
    rcases hspecial with rfl | rfl | rfl | rfl | rfl
    · exact hnamed "amp".toList '&' rfl
    · exact hnamed "nbsp".toList '\u00a0' rfl
    · exact hnamed "lt".toList '<' rfl
    · exact hnamed "gt".toList '>' rfl
    · exact hnamed "quot".toList '"' rfl

theorem expand_escapeValue (cs : List Char) : expand true (cs.flatMap escapeValueChar) = cs := by
  rw [expand]
  induction cs with
  | nil => rfl
  | cons c cs ih => rw [List.flatMap_cons, expandFrom_escapeValueChar, ih]

/-- What comes back of a value that is written and read. -/
def readValue (value : String) : String := String.ofList ((normalizeLines value.toList).map showNull)

theorem normalizeLines_flatMap_escapeValueChar (cs : List Char) :
    normalizeLines (cs.flatMap escapeValueChar) = (normalizeLines cs).flatMap escapeValueChar := by
  have hkeeps : ∀ c, c ≠ '\r' → ∀ rest, normalizeLines (escapeValueChar c ++ rest) =
      escapeValueChar c ++ normalizeLines rest := by
    intro c hc rest
    rcases escapeValueChar_cases c with ⟨hsame, -⟩ | hspecial
    · rw [hsame]
      exact normalizeLines_cons hc rest
    · simp only [List.mem_cons, List.not_mem_nil, or_false] at hspecial
      rcases hspecial with rfl | rfl | rfl | rfl | rfl <;> rfl
  have hreturn : escapeValueChar '\r' = ['\r'] := rfl
  have hfeed : escapeValueChar '\n' = ['\n'] := rfl
  fun_induction normalizeLines cs with
  | case1 => rfl
  | case2 cs ih => simpa [hreturn, hfeed, normalizeLines] using ih
  | case3 cs hcs ih =>
    have hhead : (cs.flatMap escapeValueChar).head? ≠ some '\n' := by
      cases cs with
      | nil => simp
      | cons c cs =>
        rcases escapeValueChar_cases c with ⟨hsame, -⟩ | hspecial
        · simpa [hsame] using fun heq => hcs cs (by rw [heq])
        · simp only [List.mem_cons, List.not_mem_nil, or_false] at hspecial
          rcases hspecial with rfl | rfl | rfl | rfl | rfl <;> simp [escapeValueChar, escapeTextChar]
    rw [List.flatMap_cons, hreturn, List.singleton_append, normalizeLines_return hhead, ih, List.flatMap_cons, hfeed]
    rfl
  | case4 c cs hcs hc ih =>
    rw [List.flatMap_cons, hkeeps c (fun heq => hc heq), ih, List.flatMap_cons]

theorem map_showNull_flatMap_escapeValueChar (cs : List Char) :
    (cs.flatMap escapeValueChar).map showNull = (cs.map showNull).flatMap escapeValueChar := by
  rw [List.map_flatMap, List.flatMap_map]
  refine List.flatMap_congr fun c _ => ?_
  rcases escapeValueChar_cases c with ⟨hsame, -⟩ | hspecial
  · rw [hsame, List.map_singleton, showNull]
    split_ifs
    · rfl
    · exact hsame.symm
  · simp only [List.mem_cons, List.not_mem_nil, or_false] at hspecial
    rcases hspecial with rfl | rfl | rfl | rfl | rfl <;> rfl

theorem quote_not_mem_escapeValue (cs : List Char) : '"' ∉ cs.flatMap escapeValueChar := by
  intro hmem
  obtain ⟨c, -, hc⟩ := List.mem_flatMap.mp hmem
  rcases escapeValueChar_cases c with ⟨hsame, -, hne⟩ | hspecial
  · exact hne (by simpa [hsame, eq_comm] using hc)
  · simp only [List.mem_cons, List.not_mem_nil, or_false] at hspecial
    rcases hspecial with rfl | rfl | rfl | rfl | rfl <;> simp [escapeValueChar, escapeTextChar] at hc

/-! ### Names in tags -/

/-- Is the text read as the name of a tag, but for its capitals? -/
def isTagName : List Char → Bool
  | [] => false
  | c :: rest => isAsciiLetter c && (c :: rest).all fun c => !(endsTagName c || c = '\r' || c = '\x00')

/-- Is the text read as the name of an attribute, but for its capitals? -/
def isAttributeName : List Char → Bool
  | [] => false
  | c :: rest => (c :: rest).all (fun c => !(endsTagName c || c = '\r' || c = '\x00')) && !rest.contains '='

theorem asciiLower_ne_null (hc : c ≠ '\x00') : asciiLower c ≠ '\x00' := by
  unfold asciiLower
  split_ifs with hcapital
  · intro heq
    have hall : ∀ n < 91, 65 ≤ n → Char.ofNat (n + 32) ≠ '\x00' := by decide
    have hlt : c.toNat < 91 := Nat.lt_succ_of_le hcapital.2
    exact hall c.toNat hlt hcapital.1 heq
  · exact hc

theorem map_nameChar (h : '\x00' ∉ cs) : cs.map nameChar = cs.map asciiLower := by
  refine List.map_congr_left fun c hc => ?_
  rw [nameChar, showNull, if_neg]
  exact asciiLower_ne_null fun heq => h (heq ▸ hc)

theorem isTagName_iff : isTagName cs ↔
    (∃ c rest, cs = c :: rest ∧ isAsciiLetter c) ∧ ∀ c ∈ cs, endsTagName c = false ∧ c ≠ '\r' ∧ c ≠ '\x00' := by
  cases cs with
  | nil => simp [isTagName]
  | cons c rest => simp [isTagName, and_assoc]

theorem isAttributeName_iff : isAttributeName cs ↔
    (∃ c rest, cs = c :: rest ∧ '=' ∉ rest) ∧ ∀ c ∈ cs, endsTagName c = false ∧ c ≠ '\r' ∧ c ≠ '\x00' := by
  cases cs with
  | nil => simp [isAttributeName]
  | cons c rest => simp [isAttributeName, and_assoc, and_comm]

theorem endsTagName_eq_false : endsTagName c = false ↔ isTagBlank c = false ∧ c ≠ '/' ∧ c ≠ '>' := by
  simp [endsTagName, and_assoc]

/-! ### Tags -/

/-- What comes back of an attribute. -/
def readAttribute (a : Attribute) : String × String := (asciiLowercase (attributeLabel a.name), readValue a.value)

/-- The start tag that is read. -/
def readTag (name : Name) (attributes : List Attribute) : Tag :=
  ⟨asciiLowercase name.label, attributes.map readAttribute, false⟩

theorem scanAttributes_nameRun (h : ∀ c ∈ cs, endsTagName c = false ∧ c ≠ '=') (name : List Char)
    (done : List (String × String)) (rest : List Char) :
    scanAttributes (.name name) done (cs ++ '=' :: rest) =
      scanAttributes (.beforeValue ((cs.map nameChar).reverse ++ name)) done rest := by
  induction cs generalizing name with
  | nil => rfl
  | cons c cs ih =>
    obtain ⟨⟨hends, hequals⟩, hcs⟩ := List.forall_mem_cons.mp h
    obtain ⟨hblank, hslash, hangle⟩ := endsTagName_eq_false.mp hends
    rw [List.cons_append, scanAttributes, if_neg (by simp [hblank]), if_neg hslash, if_neg hequals, if_neg hangle,
      ih hcs]
    simp

theorem scanAttributes_name (h : isAttributeName cs) (done : List (String × String)) (rest : List Char) :
    scanAttributes .gap done (' ' :: cs ++ '=' :: '"' :: rest) =
      scanAttributes (.quoted '"' (cs.map nameChar).reverse []) done rest := by
  obtain ⟨⟨c, cs, rfl, hequals⟩, hall⟩ := isAttributeName_iff.mp h
  obtain ⟨⟨hends, -⟩, hcs⟩ := List.forall_mem_cons.mp hall
  obtain ⟨hblank, hslash, hangle⟩ := endsTagName_eq_false.mp hends
  have hrun : ∀ d ∈ cs, endsTagName d = false ∧ d ≠ '=' := fun d hd =>
    ⟨(hcs d hd).1, fun heq => hequals (heq ▸ hd)⟩
  rw [List.cons_append, scanAttributes, if_pos (by decide), List.cons_append, scanAttributes, if_neg (by simp [hblank]),
    if_neg hslash, if_neg hangle, scanAttributes_nameRun hrun, scanAttributes, if_neg (by decide), if_pos (.inl rfl)]
  simp

theorem toList_attributeText (a : Attribute) : (attributeText a).toList =
    ' ' :: (attributeLabel a.name).toList ++ '=' :: '"' :: (a.value.toList.flatMap escapeValueChar ++ ['"']) := by
  simp [attributeText, escapeValue]

theorem normalizeLines_name (h : '\r' ∉ cs) (hc : c ≠ '\r') (hfeed : c ≠ '\n') (rest : List Char) :
    normalizeLines (cs ++ c :: rest) = cs ++ c :: normalizeLines rest := by
  rw [normalizeLines_append_cons hc hfeed, normalizeLines_eq h]

/-- An attribute with a name that no other has. -/
theorem scanAttributes_attribute {a : Attribute} (h : isAttributeName (attributeLabel a.name).toList)
    {done : List (String × String)} (hnew : (readAttribute a).1 ∉ done.map Prod.fst) (rest : List Char) :
    scanAttributes .gap done (normalizeLines ((attributeText a).toList ++ rest)) =
      scanAttributes .gap (done ++ [readAttribute a]) (normalizeLines rest) := by
  have hall := (isAttributeName_iff.mp h).2
  have hlines : normalizeLines ((attributeText a).toList ++ rest) =
      ' ' :: (attributeLabel a.name).toList ++ '=' :: '"' ::
        ((normalizeLines a.value.toList).flatMap escapeValueChar ++ '"' :: normalizeLines rest) := by
    rw [toList_attributeText, List.cons_append, List.cons_append, normalizeLines_cons (by decide), List.append_assoc,
      List.cons_append, normalizeLines_name (fun hmem => (hall _ hmem).2.1 rfl) (by decide) (by decide),
      List.cons_append, normalizeLines_cons (by decide), List.append_assoc, List.singleton_append,
      normalizeLines_append_cons (by decide) (by decide), normalizeLines_flatMap_escapeValueChar, List.cons_append]
  have hadd : addAttribute done ((attributeLabel a.name).toList.map nameChar).reverse
      (((normalizeLines a.value.toList).flatMap escapeValueChar).reverse ++ []) = done ++ [readAttribute a] := by
    have hlabel : String.ofList ((attributeLabel a.name).toList.map nameChar).reverse.reverse = (readAttribute a).1 := by
      rw [List.reverse_reverse, map_nameChar fun hmem => (hall _ hmem).2.2 rfl]
      rfl
    have hnone : done.lookup (readAttribute a).1 = none := by
      rw [List.lookup_eq_none_iff]
      exact fun p hp => by simpa using fun heq : (readAttribute a).1 = p.1 => hnew (heq ▸ List.mem_map_of_mem hp)
    rw [addAttribute, hlabel, hnone, List.append_nil, List.reverse_reverse, map_showNull_flatMap_escapeValueChar,
      expand_escapeValue]
    rfl
  rw [hlines, scanAttributes_name h, scanAttributes_quoted (quote_not_mem_escapeValue _), hadd]

theorem scanAttributes_attributes {attributes : List Attribute}
    (h : ∀ a ∈ attributes, isAttributeName (attributeLabel a.name).toList) {done : List (String × String)}
    (hdistinct : ((done ++ attributes.map readAttribute).map Prod.fst).Nodup) (rest : List Char) :
    scanAttributes .gap done
        (normalizeLines ((attributes.flatMap fun a => (attributeText a).toList) ++ '>' :: rest)) =
      some ⟨done ++ attributes.map readAttribute, false, normalizeLines rest⟩ := by
  induction attributes generalizing done with
  | nil =>
    rw [List.flatMap_nil, List.nil_append, normalizeLines_cons (by decide), scanAttributes, if_neg (by decide),
      if_neg (by decide), if_pos rfl, List.map_nil, List.append_nil]
  | cons a attributes ih =>
    obtain ⟨ha, hattributes⟩ := List.forall_mem_cons.mp h
    have hmoved : done ++ (a :: attributes).map readAttribute = (done ++ [readAttribute a]) ++ attributes.map readAttribute := by
      simp
    have hnew : (readAttribute a).1 ∉ done.map Prod.fst := by
      rw [List.map_append, List.nodup_append] at hdistinct
      exact fun hmem => hdistinct.2.2 _ hmem _ (by simp) rfl
    rw [hmoved] at hdistinct ⊢
    rw [List.flatMap_cons, List.append_assoc, scanAttributes_attribute ha hnew, ih hattributes hdistinct]

theorem takeWhile_name (h : ∀ c ∈ cs, endsTagName c = false) (hc : endsTagName c) (rest : List Char) :
    (cs ++ c :: rest).takeWhile (fun c => !endsTagName c) = cs := by
  rw [takeWhile_append_stop (by simp [hc]), List.takeWhile_eq_self_iff]
  simpa using h

/-- A tag is read up to its end. -/
theorem scanTag_name (h : isTagName cs) (hc : endsTagName c) {tagEnd : TagEnd}
    (hend : scanAttributes .gap [] (c :: rest) = some tagEnd) :
    scanTag (cs ++ c :: rest) =
      some (⟨String.ofList (cs.map asciiLower), tagEnd.attributes, tagEnd.isSelfClosing⟩, tagEnd.rest) := by
  have hall := (isTagName_iff.mp h).2
  have htake := takeWhile_name (fun d hd => (hall d hd).1) hc rest
  have hscan := scanTag_eq (cs ++ c :: rest) (by rw [htake, List.drop_left, hend])
  rw [hscan, htake, map_nameChar fun hmem => (hall _ hmem).2.2 rfl]

theorem scanMarkup_angle_letter {tag : Tag} {left : List Char} (h : isTagName cs)
    (hscan : scanTag (cs ++ rest) = some (tag, left)) (inForeign : Bool) :
    scanMarkup inForeign ('<' :: (cs ++ rest)) = ⟨some (.opening tag), .markup, left⟩ := by
  obtain ⟨⟨c, cs, rfl, hletter⟩, -⟩ := isTagName_iff.mp h
  exact scanMarkup_opening hletter hscan

theorem scanMarkup_slash_letter {tag : Tag} {left : List Char} (h : isTagName cs)
    (hscan : scanTag (cs ++ rest) = some (tag, left)) (inForeign : Bool) :
    scanMarkup inForeign ('<' :: '/' :: (cs ++ rest)) = ⟨some (.closing tag), .markup, left⟩ := by
  obtain ⟨⟨c, cs, rfl, hletter⟩, -⟩ := isTagName_iff.mp h
  rw [List.cons_append] at hscan ⊢
  rw [scanMarkup, if_pos rfl, scanAngle, if_pos hletter, hscan]
  rintro rfl
  exact absurd hletter (by decide)

/-- A name and attributes that a tag can be written with and read again. The attributes of HTML elements are
in no vocabulary, and the values that identify an element are as they were read. -/
structure LegibleTag (name : Name) (attributes : List Attribute) : Prop where
  tagName : isTagName name.label.toList
  attributeNames : ∀ a ∈ attributes, isAttributeName (attributeLabel a.name).toList
  plain : name.vocabulary = .html →
    ∀ a ∈ attributes, a.name.vocabulary = .plain ∧ asciiLowercase a.name.label = a.name.label
  distinct : (attributes.map fun a => asciiLowercase (attributeLabel a.name)).Nodup
  identifiers : ∀ a ∈ attributes, "id".toList.isPrefixOf a.name.label.toList →
    a.name.vocabulary = .plain ∧ '\x00' ∉ a.value.toList

/-- Contents that can be written and read again. -/
def Legible : Content → Prop
  | .element name attributes => LegibleTag name attributes
  | .comment text => '\r' ∉ text.toList ∧
      ∀ rest, scanComment (text.toList ++ "-->".toList ++ rest) = (text.toList, rest)
  | .doctype name => name = "html"
  | .text _ | .document => True

variable {name : Name} {attributes : List Attribute}

theorem toList_startTag (name : Name) (attributes : List Attribute) : (startTag name attributes).toList =
    '<' :: name.label.toList ++ ((attributes.flatMap fun a => (attributeText a).toList) ++ ['>']) := by
  simp [startTag, String.toList_join, List.flatMap_map]

theorem scanMarkup_startTag (h : LegibleTag name attributes) (inForeign : Bool) (rest : List Char) :
    scanMarkup inForeign (normalizeLines ((startTag name attributes).toList ++ rest)) =
      ⟨some (.opening (readTag name attributes)), .markup, normalizeLines rest⟩ := by
  have hend := @scanAttributes_attributes attributes h.attributeNames []
    (by simpa [Function.comp_def, readAttribute] using h.distinct) rest
  -- the name ends with the blank in front of an attribute or with the end of the tag
  obtain ⟨c, more, heq, hends, hreturn, hfeed⟩ : ∃ c more,
      (attributes.flatMap fun a => (attributeText a).toList) ++ '>' :: rest = c :: more ∧
        endsTagName c ∧ c ≠ '\r' ∧ c ≠ '\n' := by
    cases attributes with
    | nil => exact ⟨'>', rest, rfl, by decide⟩
    | cons a attributes => exact ⟨' ', _, by rw [List.flatMap_cons, toList_attributeText]; rfl, by decide⟩
  have hlines : normalizeLines ((startTag name attributes).toList ++ rest) =
      '<' :: (name.label.toList ++ c :: normalizeLines more) := by
    rw [toList_startTag, List.cons_append, List.cons_append, normalizeLines_cons (by decide), List.append_assoc,
      List.append_assoc, List.singleton_append, heq,
      normalizeLines_name (fun hmem => ((isTagName_iff.mp h.tagName).2 _ hmem).2.1 rfl) hreturn hfeed]
  rw [heq, normalizeLines_cons hreturn] at hend
  rw [hlines, scanMarkup_angle_letter h.tagName (scanTag_name h.tagName hends hend)]
  rfl

theorem toList_endTag (name : Name) (rest : List Char) :
    (endTag name).toList ++ rest = '<' :: '/' :: (name.label.toList ++ '>' :: rest) := by
  simp [endTag]

theorem normalizeLines_endTag (h : isTagName name.label.toList) (rest : List Char) :
    normalizeLines ((endTag name).toList ++ rest) =
      '<' :: '/' :: (name.label.toList ++ '>' :: normalizeLines rest) := by
  rw [toList_endTag, normalizeLines_cons (by decide), normalizeLines_cons (by decide),
    normalizeLines_name (fun hmem => ((isTagName_iff.mp h).2 _ hmem).2.1 rfl) (by decide) (by decide)]

theorem scanMarkup_endTag (h : isTagName name.label.toList) (inForeign : Bool) (rest : List Char) :
    scanMarkup inForeign (normalizeLines ((endTag name).toList ++ rest)) =
      ⟨some (.closing (.bare (asciiLowercase name.label))), .markup, normalizeLines rest⟩ := by
  have hend : scanAttributes .gap [] ('>' :: normalizeLines rest) = some ⟨[], false, normalizeLines rest⟩ := by
    rw [scanAttributes, if_neg (by decide), if_neg (by decide), if_pos rfl]
  rw [normalizeLines_endTag h, scanMarkup_slash_letter h (scanTag_name h (by decide) hend)]
  rfl

theorem scanMarkup_comment {text : String} (h : Legible (.comment text)) (inForeign : Bool) (rest : List Char) :
    scanMarkup inForeign (normalizeLines (("<!--" ++ text ++ "-->").toList ++ rest)) =
      ⟨some (.comment (String.ofList (text.toList.map showNull))), .markup, normalizeLines rest⟩ := by
  have hlines : normalizeLines (("<!--" ++ text ++ "-->").toList ++ rest) =
      '<' :: '!' :: '-' :: '-' :: (text.toList ++ "-->".toList ++ normalizeLines rest) := by
    have hchars : ("<!--" ++ text ++ "-->").toList ++ rest =
        '<' :: '!' :: '-' :: '-' :: (text.toList ++ '-' :: '-' :: '>' :: rest) := by simp
    rw [hchars, normalizeLines_cons (by decide), normalizeLines_cons (by decide), normalizeLines_cons (by decide),
      normalizeLines_cons (by decide), normalizeLines_name h.1 (by decide) (by decide),
      normalizeLines_cons (by decide), normalizeLines_cons (by decide)]
    simp
  rw [hlines, scanMarkup, if_pos rfl, scanAngle, scanDeclaration, h.2]
  rfl

/-! ### Text -/

/-- The reading of the text in an element with this name. -/
def ReadingMode.EndsWith (label : String) : ReadingMode → Prop
  | .escapable other | .raw other => other = label
  | .script => label = "script"
  | _ => False

/-- Does no `<` in the text open markup? -/
def opensNothing : List Char → Bool
  | [] => true
  | c :: rest => !(c = '<' && opensMarkup rest) && opensNothing rest

theorem opensNothing_cons_iff : opensNothing (c :: rest) ↔ (c = '<' → opensMarkup rest = false) ∧ opensNothing rest := by
  simp [opensNothing, imp_iff_not_or]

theorem opensNothing_of_not_mem (h : '<' ∉ cs) : opensNothing cs := by
  induction cs with
  | nil => rfl
  | cons c cs ih =>
    exact opensNothing_cons_iff.mpr ⟨fun heq => absurd (heq ▸ List.mem_cons_self) h, ih (List.not_mem_of_not_mem_cons h)⟩

theorem opensNothing_drop (h : opensNothing cs) (n : Nat) : opensNothing (cs.drop n) := by
  induction cs generalizing n with
  | nil => simpa using h
  | cons c cs ih =>
    cases n with
    | zero => exact h
    | succ n => exact ih (opensNothing_cons_iff.mp h).2 n

theorem opensNothing_normalizeLines (h : opensNothing cs) : opensNothing (normalizeLines cs) := by
  have hhead : ∀ cs, opensMarkup (normalizeLines cs) = opensMarkup cs := fun cs => by
    fun_cases normalizeLines cs <;> rfl
  fun_induction normalizeLines cs with
  | case1 => rfl
  | case2 cs ih =>
    exact opensNothing_cons_iff.mpr ⟨nofun, ih (opensNothing_cons_iff.mp (opensNothing_cons_iff.mp h).2).2⟩
  | case3 cs hcs ih => exact opensNothing_cons_iff.mpr ⟨nofun, ih (opensNothing_cons_iff.mp h).2⟩
  | case4 c cs hcs hc ih =>
    obtain ⟨hopens, hrest⟩ := opensNothing_cons_iff.mp h
    exact opensNothing_cons_iff.mpr ⟨fun heq => (hhead cs).trans (hopens heq), ih hrest⟩

/-- What stands after a `<` that opens nothing opens nothing if a tag follows it. -/
theorem opensMarkup_append_angle (h : opensMarkup cs = false) (rest : List Char) :
    opensMarkup (cs ++ '<' :: rest) = false := by
  rw [opensMarkup_append_stop isStop_angle, h]

/-- Text in front of a tag is read as text, piece by piece. -/
theorem scanMarkup_text (hne : cs ≠ []) (h : opensNothing cs) (inForeign : Bool) (rest : List Char) :
    ∃ token left, scanMarkup inForeign (cs ++ '<' :: rest) = ⟨some token, .markup, left ++ '<' :: rest⟩ ∧
      (token = .null ∨ ∃ chars, token = .text chars) ∧ opensNothing left ∧ left.length < cs.length := by
  obtain ⟨c, cs, rfl⟩ := List.exists_cons_of_ne_nil hne
  obtain ⟨hopens, hrest⟩ := opensNothing_cons_iff.mp h
  by_cases hangle : c = '<'
  · subst hangle
    exact ⟨_, cs, scanMarkup_angle (opensMarkup_append_angle (hopens rfl) rest), .inr ⟨_, rfl⟩, hrest, by simp⟩
  by_cases hnull : c = '\x00'
  · subst hnull
    exact ⟨.null, cs, rfl, .inl rfl, hrest, by simp⟩
  · -- a run up to the tag or to a null character
    have htake : (c :: (cs ++ '<' :: rest)).takeWhile (fun c => c ≠ '<' ∧ c ≠ '\x00') =
        (c :: cs).takeWhile fun c => c ≠ '<' ∧ c ≠ '\x00' := takeWhile_append_stop (by simp) (c :: cs) rest
    have hle := (List.takeWhile_prefix (fun c => c ≠ '<' ∧ c ≠ '\x00') (l := c :: cs)).length_le
    refine ⟨.text (expand false ((c :: cs).takeWhile fun c => c ≠ '<' ∧ c ≠ '\x00')),
      (c :: cs).drop ((c :: cs).takeWhile fun c => c ≠ '<' ∧ c ≠ '\x00').length, ?_, .inr ⟨_, rfl⟩,
      opensNothing_drop h _, ?_⟩
    · rw [List.cons_append, scanMarkup, if_neg hangle, if_neg hnull]
      dsimp only
      rw [htake, ← List.cons_append, List.drop_append_of_le_length hle]
    · rw [List.length_drop, List.takeWhile_cons_of_pos (by simp [hangle, hnull]), List.length_cons, List.length_cons]
      omega

theorem closesElement_text (hopens : opensMarkup cs = false) (label rest : List Char) :
    closesElement label (cs ++ '<' :: rest) = false := by
  cases cs with
  | nil => rfl
  | cons c cs =>
    unfold closesElement
    split
    · next heq => simp [(List.cons.inj heq).1, opensMarkup] at hopens
    · rfl

theorem rawRun_text (h : opensNothing cs) (label rest : List Char) :
    rawRun label (cs ++ '<' :: rest) = cs ++ rawRun label ('<' :: rest) := by
  induction cs with
  | nil => rfl
  | cons c cs ih =>
    obtain ⟨hopens, hrest⟩ := opensNothing_cons_iff.mp h
    rw [List.cons_append, rawRun, if_neg, ih hrest, List.cons_append]
    intro hcloses
    obtain ⟨hangle, hcloses⟩ := (Bool.and_eq_true _ _).mp hcloses
    rw [closesElement_text (hopens (of_decide_eq_true hangle))] at hcloses
    exact absurd hcloses Bool.false_ne_true

theorem scriptRun_text (h : opensNothing cs) (rest : List Char) :
    scriptRun .plain (cs ++ '<' :: rest) = cs ++ scriptRun .plain ('<' :: rest) := by
  induction cs with
  | nil => rfl
  | cons c cs ih =>
    obtain ⟨hopens, hrest⟩ := opensNothing_cons_iff.mp h
    have hstep : ScriptPlace.plain.step c (cs ++ '<' :: rest) = .plain := by
      rw [ScriptPlace.step, if_neg]
      rintro ⟨hangle, htake⟩
      have hnot := opensMarkup_append_angle (hopens hangle) rest
      cases hmore : cs ++ '<' :: rest with
      | nil => simp [hmore] at htake
      | cons d more =>
        rw [hmore] at htake hnot
        obtain rfl : d = '!' := (List.cons.inj htake).1
        simp [opensMarkup] at hnot
    rw [List.cons_append, scriptRun, hstep, if_neg, ih hrest, List.cons_append]
    intro hcloses
    rw [Bool.and_eq_true, Bool.and_eq_true] at hcloses
    obtain ⟨⟨hangle, -⟩, hcloses⟩ := hcloses
    rw [closesElement_text (hopens (of_decide_eq_true hangle))] at hcloses
    exact absurd hcloses Bool.false_ne_true

/-- The end tag of an element closes it. -/
theorem closesElement_end {label : List Char} (h : cs.map asciiLower = label) (hc : endsTagName c) (rest : List Char) :
    closesElement label ('/' :: (cs ++ c :: rest)) := by
  subst h
  simp [closesElement, startsWithLetters, hc]

/-- The text in an element, up to its end tag. -/
theorem scan_text {mode : ReadingMode} {label : String} (hmode : mode.EndsWith label) {name : List Char}
    (hname : name.map asciiLower = label.toList) (hne : cs ≠ []) (h : opensNothing cs) (inForeign : Bool)
    (rest : List Char) :
    ∃ shown, scan mode inForeign (cs ++ '<' :: '/' :: (name ++ '>' :: rest)) =
      ⟨some (.text shown), mode, '<' :: '/' :: (name ++ '>' :: rest)⟩ := by
  have hrun : ∀ shown run, run = cs → scanRun mode shown run (cs ++ '<' :: '/' :: (name ++ '>' :: rest)) =
      ⟨some (.text shown), mode, '<' :: '/' :: (name ++ '>' :: rest)⟩ := by
    rintro shown run rfl
    rw [scanRun, if_neg (by simpa using hne), List.drop_left]
  have hraw : rawRun label.toList (cs ++ '<' :: '/' :: (name ++ '>' :: rest)) = cs := by
    rw [rawRun_text h, rawRun, closesElement_end hname (by decide)]
    simp
  cases mode with
  | escapable other =>
    obtain rfl : other = label := hmode
    exact ⟨_, hrun _ _ hraw⟩
  | raw other =>
    obtain rfl : other = label := hmode
    exact ⟨_, hrun _ _ hraw⟩
  | script =>
    obtain rfl : label = "script" := hmode
    refine ⟨_, hrun _ _ ?_⟩
    rw [scriptRun_text h, scriptRun, scriptLabel, ← hname, closesElement_end rfl (by decide)]
    simp [ScriptPlace.isNested]
  | _ => exact absurd hmode id

/-- The end tag is read as markup. -/
theorem scan_endTag {mode : ReadingMode} {label : String} (hmode : mode.EndsWith label) {name : List Char}
    (hname : name.map asciiLower = label.toList) (inForeign : Bool) (rest : List Char) :
    scan mode inForeign ('<' :: '/' :: (name ++ '>' :: rest)) =
      scanMarkup false ('<' :: '/' :: (name ++ '>' :: rest)) := by
  have hraw : rawRun label.toList ('<' :: '/' :: (name ++ '>' :: rest)) = [] := by
    rw [rawRun, closesElement_end hname (by decide)]
    simp
  cases mode with
  | escapable other =>
    obtain rfl : other = label := hmode
    rw [scan, hraw]
    rfl
  | raw other =>
    obtain rfl : other = label := hmode
    rw [scan, hraw]
    rfl
  | script =>
    obtain rfl : label = "script" := hmode
    have hscript : scriptRun .plain ('<' :: '/' :: (name ++ '>' :: rest)) = [] := by
      rw [scriptRun, scriptLabel, ← hname, closesElement_end rfl (by decide)]
      simp [ScriptPlace.isNested]
    rw [scan, hscript]
    rfl
  | _ => exact absurd hmode id

end Html
end Markup
end CrossRef
