import CrossRef.Proofs.Ready.Closing
import CrossRef.Proofs.Ready.Moving

/-!
The split of a formatting element. Its copies are put around the block inside of it, one around the other,
and the outermost one goes to where the element stands, so that everything stays below the body.
-/
namespace CrossRef
namespace Markup
namespace Html

open Dom

theorem isOrdinary_of_isFormatting {label : String} (h : isFormatting label) : isOrdinary (.html label) := by
  have hall : ∀ label ∈ ["a", "b", "big", "code", "em", "font", "i", "nobr", "s", "small", "strike", "strong",
      "tt", "u"], isOrdinary (.html label) := by decide
  exact hall label (by simpa [isFormatting] using h)

theorem not_isTemplate_of_isFormatting {label : String} (h : isFormatting label) : isTemplate (.html label) = false := by
  have hall : ∀ label ∈ ["a", "b", "big", "code", "em", "font", "i", "nobr", "s", "small", "strike", "strong",
      "tt", "u"], isTemplate (.html label) = false := by decide
  exact hall label (by simpa [isFormatting] using h)

theorem ne_body_of_isFormatting {label : String} (h : isFormatting label) : label ≠ "body" := by
  rintro rfl
  exact absurd h (by decide)

theorem not_endsFostering_of_isOrdinary {name : Name} (h : isOrdinary name) : endsFostering name = false := by
  by_contra hends
  obtain ⟨label, hlabel, rfl⟩ := eq_html_of_isHtmlAmong (Bool.of_not_eq_false hends)
  have hall : ∀ label ∈ ["table", "template"], isOrdinary (.html label) = false := by decide
  exact absurd h (by simp [hall label hlabel])

theorem not_isVoidElement_of_isOrdinary {name : Name} (h : isOrdinary name) : isVoidElement name = false := by
  simp only [isOrdinary, Bool.and_eq_true, Bool.not_eq_true'] at h
  exact h.2

/-- From one arena to another everything stayed below what it was below or went into one node. -/
structure Carries (σ : Setting) (dom dom' : Dom) (last : NodeId) : Prop where
  content : ∀ i old, dom.content? (some i) = some old → dom'.content? (some i) = some old
  above : ∀ a i, dom.Above a i → dom'.Above a i ∨ dom'.Encloses last i
  parents : ∀ i p, dom'.parent? (some i) = some p → dom.parent? (some i) = some p ∨ NotVoid dom' p
  contents : σ.Suits dom → σ.Suits dom'

theorem NotVoid.of_content {dom dom' : Dom} {i : NodeId} (h : NotVoid dom i)
    (hcontent : ∀ i old, dom.content? (some i) = some old → dom'.content? (some i) = some old) : NotVoid dom' i := by
  obtain ⟨old, hold⟩ := Option.isSome_iff_exists.mp ((content?_isSome_iff dom i).mpr h.lt_size)
  have hnew := hcontent i old hold
  have hsame := name?_congr (hold.trans hnew.symm)
  exact ⟨(content?_isSome_iff dom' i).mp (by simp [hnew]), fun name hname => h.name name (by rwa [hsame]),
    hsame ▸ h.kind.imp_left fun hdocument => hcontent i .document hdocument⟩

section Around

variable {σ : Setting} {dom dom' : Dom} {last : NodeId}

theorem Carries.refl (σ : Setting) (dom : Dom) (last : NodeId) : Carries σ dom dom last :=
  ⟨fun _ _ hold => hold, fun _ _ hi => .inl hi, fun _ _ hp => .inl hp, fun h => h⟩

theorem Carries.around (h : Carries σ dom dom' last) (hlast : last < dom'.size) {name : Name}
    {attributes : List Attribute} (hfits : σ.Allows (.element name attributes)) (hvoid : isVoidElement name = false) :
    Carries σ dom (dom'.around (.element name attributes) last) dom'.size := by
  have hstay : ∀ i old, dom'.content? (some i) = some old →
      (dom'.around (.element name attributes) last).content? (some i) = some old := by
    intro i old hold
    rw [content?_around, if_neg, hold]
    exact ((content?_isSome_iff dom' i).mp (by simp [hold])).ne
  have hparent := parent?_around (.element name attributes) hlast
  have hin : (dom'.around (.element name attributes) last).Encloses dom'.size last :=
    .single (by rw [hparent, if_pos rfl])
  refine ⟨fun i old hold => hstay i old (h.content i old hold), fun a i hi => ?_, fun i p hp => ?_, fun hall i content hi => ?_⟩
  · rcases h.above a i hi with habove | hcarried
    · exact (above_move_cases hparent habove).imp_right hin.trans
    · exact .inr (hin.trans (encloses_move_self hparent hcarried))
  · rw [hparent] at hp
    split_ifs at hp
    · obtain rfl := Option.some_inj.mp hp
      have hnew : (dom'.around (.element name attributes) last).content? (some dom'.size) =
          some (.element name attributes) := by rw [content?_around, if_pos rfl]
      exact .inr (.of_name (by rw [name?, hnew]) hvoid)
    · exact (h.parents i p hp).imp_right (·.of_content hstay)
  · rw [content?_around] at hi
    split_ifs at hi
    · obtain rfl := Option.some_inj.mp hi
      exact ⟨hfits.1, fun hbody => by simp [hfits.2] at hbody⟩
    · exact h.contents hall i content hi

/-- What was carried is put below the body again. -/
theorem Carries.extends (h : Carries σ dom dom' last) (hlast : last < dom'.size) {target : NodeId}
    (ht : σ.Hosts dom' target) (hnot : ¬ dom'.Encloses last target) :
    σ.Extends dom ((dom'.detach (some last)).append (some target) (some last)) := by
  have hparent := parent?_move hlast target
  refine ⟨fun i old hold => ⟨old, by simpa using h.content i old hold, .refl old⟩, fun a i ha hi => ?_, fun i p hp => ?_,
    fun hall i content hi => h.contents hall i content (by simpa using hi)⟩
  · have hat : dom'.Encloses a target := by
      rcases Relation.reflTransGen_iff_eq_or_transGen.mp ha with rfl | habove
      · exact ht.inside
      · exact ((h.above a σ.body habove).resolve_right fun hlb => hnot (hlb.trans ht.inside)).to_reflTransGen.trans
          ht.inside
    have hinside := Setting.Extends.encloses_of_moved (fun j hj => by rw [hparent, if_neg hj]) hat hnot
    have hmoved : ((dom'.detach (some last)).append (some target) (some last)).Above a last :=
      .tail' hinside (by rw [hparent, if_pos rfl])
    rcases h.above a i hi with habove | hcarried
    · exact Setting.Extends.above_move hlast hnot hat habove
    · exact hmoved.trans_left (encloses_move_self hparent hcarried)
  · rw [hparent] at hp
    split_ifs at hp
    · obtain rfl := Option.some_inj.mp hp
      exact .inr (ht.toNotVoid.of_content fun i old hold => by simpa using hold)
    · exact (h.parents i p hp).imp_right (·.of_content fun i old hold => by simpa using hold)

/-- A new element is put around what is in another. -/
theorem Setting.Extends.nested (hwf : dom.WellFormed) {p : NodeId} (hp : NotVoid dom p) {name : Name}
    {attributes : List Attribute} (hfits : σ.Allows (.element name attributes)) (hvoid : isVoidElement name = false) :
    σ.Extends dom (dom.nested (.element name attributes) p) := by
  have hstay : ∀ i old, dom.content? (some i) = some old →
      (dom.nested (.element name attributes) p).content? (some i) = some old := by
    intro i old hold
    rw [content?_nested, if_neg, hold]
    exact ((content?_isSome_iff dom i).mp (by simp [hold])).ne
  have hparent := parent?_nested (p := p) (.element name attributes) hwf
  have hnone : dom.parent? (some dom.size) = none := parent?_size dom
  refine ⟨fun i old hold => ⟨old, hstay i old hold, .refl old⟩, fun _ i _ hi => above_nest hparent hnone hi,
    fun i q hq => ?_, fun hall i content hi => ?_⟩
  · rw [hparent] at hq
    split_ifs at hq
    · obtain rfl := Option.some_inj.mp hq
      exact .inr (hp.of_content hstay)
    · obtain rfl := Option.some_inj.mp hq
      have hnew : (dom.nested (.element name attributes) p).content? (some dom.size) =
          some (.element name attributes) := by rw [content?_nested, if_pos rfl]
      exact .inr (.of_name (by rw [name?, hnew]) hvoid)
    · exact .inl hq
  · rw [content?_nested] at hi
    split_ifs at hi
    · obtain rfl := Option.some_inj.mp hi
      exact ⟨hfits.1, fun hbody => by simp [hfits.2] at hbody⟩
    · exact hall i content hi

end Around

/-! ### Entries -/

section Entries

variable {σ : Setting} {dom : Dom} {entries : List FormattingEntry} {node : NodeId} {tag : Tag}

theorem Listed.removeEntry (h : Listed σ dom entries) (node : NodeId) :
    Listed σ dom (removeEntry node entries) := h.subset (List.filter_subset_self _)

theorem Listed.replaceEntry (h : Listed σ dom entries) (old : NodeId)
    (hnew : isFormatting tag.label ∧ σ.FitsTag tag ∧ dom.name? (some node) = some (.html tag.label)) :
    Listed σ dom (replaceEntry old (.element node tag) entries) := by
  intro node' tag' hmem
  obtain ⟨entry, hentry, heq⟩ := List.mem_map.mp hmem
  split_ifs at heq
  · obtain ⟨rfl, rfl⟩ := FormattingEntry.element.inj heq
    exact hnew
  · exact h node' tag' (heq ▸ hentry)

theorem Listed.insertEntryAfter (h : Listed σ dom entries) (mark : NodeId)
    (hnew : isFormatting tag.label ∧ σ.FitsTag tag ∧ dom.name? (some node) = some (.html tag.label)) :
    Listed σ dom (insertEntryAfter mark (.element node tag) entries) := by
  induction entries with
  | nil => exact h
  | cons entry rest ih =>
    have hrest : Listed σ dom rest := h.subset (List.subset_cons_self _ _)
    rw [Html.insertEntryAfter]
    split_ifs
    · exact h.cons hnew.1 hnew.2.1 hnew.2.2
    · intro node' tag' hmem
      rcases List.mem_cons.mp hmem with heq | hmem
      · exact h node' tag' (heq ▸ List.mem_cons_self)
      · exact ih hrest node' tag' hmem

end Entries

namespace Construction

theorem moveInto_of_not_encloses {c : Construction} (place : Place) {node : NodeId} (hwf : c.dom.WellFormed)
    (h : ¬ c.dom.Encloses node (place.target c.dom)) : c.moveInto place node = { c with
      dom := (c.dom.detach (some node)).append (some (place.target c.dom)) (some node) } := by
  rw [moveInto_eq, if_neg (by rwa [hwf.contains_iff])]

/-- A split under way: the elements around the block are put into each other and stand outside of what was
open inside of the block, and all that they carry was below the body. -/
structure Split.Ready (σ : Setting) (c : Construction) (front rest : List OpenElement) (s : Split) : Prop where
  sound : s.Sound
  same : s.state = { c with dom := s.state.dom, formatting := s.state.formatting }
  carries : Carries σ c.dom s.state.dom s.last
  listed : Listed σ s.state.dom s.state.formatting
  named : ∀ e ∈ front ++ s.kept ++ rest, s.state.dom.name? (some e.node) = some e.name
  ordered : (front ++ s.kept ++ rest).Pairwise fun inner outer => ¬ s.state.dom.Encloses inner.node outer.node
  ordinary : ∀ e ∈ s.kept, isOrdinary e.name ∧ isTemplate e.name = false
  inside : ∀ e ∈ s.kept, s.state.dom.Encloses s.last e.node
  last : ∃ e ∈ front ++ s.kept, e.node = s.last

namespace Split.Ready

variable {σ : Setting} {c : Construction} {front rest : List OpenElement} {s : Split} {tag : Tag} {e : OpenElement}

theorem lt_size (h : s.Ready σ c front rest) (he : e ∈ front ++ s.kept ++ rest) : e.node < s.state.dom.size :=
  lt_size_of_name? (by simp [h.named e he])

/-- The state after one more copy. -/
theorem state_copyAround (h : s.Sound) (e : OpenElement) (tag : Tag) :
    (s.copyAround e tag).state = { s.state with
      dom := s.state.dom.around (.element (.html tag.label) (tag.attributesIn .html)) s.last
      formatting := replaceEntry e.node (.element s.state.dom.size tag) s.state.formatting } := by
  refine moveInto_of_not_encloses (c := { s.state with
    dom := (s.state.dom.create (.element (.html tag.label) (tag.attributesIn .html))).1
    formatting := replaceEntry e.node (.element s.state.dom.size tag) s.state.formatting })
    (.inside s.state.dom.size) (h.state.wellFormed.create _) fun henc => ?_
  exact h.last.ne (eq_of_encloses_size (henc.mono fun _ _ hp => by simpa using hp))

/-- The new element stands outside of what is put into it, and inside of the rest. -/
theorem ordered_around (h : s.Ready σ c front rest) (content : Content) (name : Name) :
    (front ++ (s.kept ++ [(⟨s.state.dom.size, name⟩ : OpenElement)]) ++ rest).Pairwise
      fun inner outer => ¬ (s.state.dom.around content s.last).Encloses inner.node outer.node := by
  obtain ⟨source, hsource, hlast⟩ := h.last
  have hordered := h.ordered
  rw [List.pairwise_append] at hordered
  obtain ⟨hinner, houter, hacross⟩ := hordered
  -- what is old encloses what it did before
  have hold : ∀ a ∈ front ++ s.kept ++ rest, ∀ b, (s.state.dom.around content s.last).Encloses a.node b →
      s.state.dom.Encloses a.node b := fun a ha b hab => by
    rcases encloses_of_around h.sound.last hab with hab | ⟨hsize, -⟩
    · exact hab
    · exact absurd hsize (h.lt_size ha).ne
  have hnew : ∀ b ∈ rest, ¬ (s.state.dom.around content s.last).Encloses s.state.dom.size b.node := fun b hb hnb => by
    rcases encloses_of_around h.sound.last hnb with hnb | ⟨-, hlb⟩
    · exact (h.lt_size (List.mem_append_right _ hb)).ne (eq_of_size_encloses h.sound.state.wellFormed hnb)
    · exact hacross source hsource b hb (hlast ▸ hlb)
  rw [← List.append_assoc, List.append_assoc, List.singleton_append, List.pairwise_append]
  refine ⟨hinner.imp_of_mem fun ha _ hnot hab => hnot (hold _ (List.mem_append_left _ ha) _ hab), ?_, ?_⟩
  · exact List.pairwise_cons.mpr ⟨hnew, houter.imp_of_mem fun ha _ hnot hab =>
      hnot (hold _ (List.mem_append_right _ ha) _ hab)⟩
  · intro a ha b hb hab
    have hab := hold a (List.mem_append_left _ ha) _ hab
    rcases List.mem_cons.mp hb with rfl | hb
    · exact (h.lt_size (List.mem_append_left _ ha)).ne (eq_of_encloses_size hab)
    · exact hacross a ha b hb hab

theorem copyAround (h : s.Ready σ c front rest) (hlabel : isFormatting tag.label) (hfits : σ.FitsTag tag)
    (e : OpenElement) : (s.copyAround e tag).Ready σ c front rest := by
  have hordinary := isOrdinary_of_isFormatting hlabel
  have hstate := state_copyAround h.sound e tag
  have hsize := h.sound.last
  obtain ⟨source, hsource, hlast⟩ := h.last
  have hcontent := @content?_around s.state.dom (.element (.html tag.label) (tag.attributesIn .html)) s.last
  have hnew : (s.state.dom.around (.element (.html tag.label) (tag.attributesIn .html)) s.last).name?
      (some s.state.dom.size) = some (.html tag.label) := by rw [name?, hcontent, if_pos rfl]
  have hold : ∀ e ∈ front ++ s.kept ++ rest, (s.state.dom.around
      (.element (.html tag.label) (tag.attributesIn .html)) s.last).name? (some e.node) = some e.name := by
    intro e he
    rw [← h.named e he]
    exact name?_congr (by rw [hcontent, if_neg (h.lt_size he).ne])
  have hin : (s.state.dom.around (.element (.html tag.label) (tag.attributesIn .html)) s.last).Encloses
      s.state.dom.size s.last := .single (by rw [parent?_around _ hsize, if_pos rfl])
  refine ⟨(h.sound.copyAround e tag).1, ?_, ?_, ?_, ?_, ?_, ?_, ?_, ?_⟩
  · rw [hstate, h.same]
  · rw [hstate]
    exact h.carries.around hsize (hfits.html (ne_body_of_isFormatting hlabel)) (not_isVoidElement_of_isOrdinary hordinary)
  · rw [hstate]
    refine (h.listed.mono fun i name hname => ?_).replaceEntry e.node ⟨hlabel, hfits, hnew⟩
    rw [← hname]
    exact name?_congr (by rw [hcontent, if_neg (lt_size_of_name? (by simp [hname])).ne])
  · rw [hstate]
    intro e' he'
    simp only [Split.copyAround, List.mem_append, List.mem_singleton] at he'
    rcases he' with (he' | he' | rfl) | he'
    · exact hold e' (by simp [he'])
    · exact hold e' (by simp [he'])
    · exact hnew
    · exact hold e' (by simp [he'])
  · rw [hstate]
    exact h.ordered_around _ _
  · intro e' he'
    rcases List.mem_append.mp he' with he' | he'
    · exact h.ordinary e' he'
    · rw [List.mem_singleton.mp he']
      exact ⟨hordinary, not_isTemplate_of_isFormatting hlabel⟩
  · rw [hstate]
    intro e' he'
    rcases List.mem_append.mp he' with he' | he'
    · exact hin.trans (encloses_move_self (parent?_around _ hsize) (h.inside e' he'))
    · rw [List.mem_singleton.mp he']
      exact .refl
  · exact ⟨⟨s.state.dom.size, .html tag.label⟩, by simp [Split.copyAround], rfl⟩

/-- Only the entries changed. -/
theorem setFormatting (h : s.Ready σ c front rest) {entries : List FormattingEntry}
    (hlisted : Listed σ s.state.dom entries) :
    Split.Ready σ c front rest { s with state := { s.state with formatting := entries } } where
  sound := ⟨h.sound.state, h.sound.last, h.sound.kept⟩
  same := by rw [h.same]
  carries := h.carries
  listed := hlisted
  named := h.named
  ordered := h.ordered
  ordinary := h.ordinary
  inside := h.inside
  last := h.last

theorem splitBetween (h : s.Ready σ c front rest) (count : Nat) (between : List OpenElement) :
    (splitBetween s count between).Ready σ c front rest := by
  induction between generalizing s count with
  | nil => exact h
  | cons e outer ih =>
    unfold Construction.splitBetween
    dsimp only
    split
    · exact ih h _
    · next tag htag =>
      obtain ⟨entry, hentry, hfound⟩ := List.exists_of_findSome?_eq_some htag
      obtain ⟨node, rfl⟩ : ∃ node, entry = .element node tag := by
        cases entry with
        | marker => simp at hfound
        | element node tag' =>
          dsimp only at hfound
          split_ifs at hfound
          exact ⟨node, by rw [Option.some_inj.mp hfound]⟩
      obtain ⟨hlabel, hfits, -⟩ := h.listed node tag hentry
      split_ifs
      · exact ih (h.setFormatting (h.listed.removeEntry e.node)) _
      · exact ih (h.copyAround hlabel hfits e) _

/-- Nothing that is open inside encloses what is open outside. -/
theorem not_encloses (h : s.Ready σ c front rest) {inner outer : OpenElement} (hinner : inner ∈ front ++ s.kept)
    (houter : outer ∈ rest) : ¬ s.state.dom.Encloses inner.node outer.node :=
  (List.pairwise_append.mp h.ordered).2.2 inner hinner outer houter

theorem not_encloses_last (h : s.Ready σ c front rest) {outer : OpenElement} (houter : outer ∈ rest) :
    ¬ s.state.dom.Encloses s.last outer.node := by
  obtain ⟨source, hsource, hlast⟩ := h.last
  exact hlast ▸ h.not_encloses hsource houter

/-- The place that the outermost copy goes to. -/
theorem target (h : s.Ready σ c front rest) {modes : List InsertionMode} {mode : InsertionMode}
    (hc : c.Ready σ modes mode) {before after : List OpenElement} (heq : c.opened = before ++ e :: after)
    (hrest : rest = e :: after) (hbefore : ∀ x ∈ before, endsFostering x.name = false) (hname : e.name ≠ .html "html") :
    σ.Hosts s.state.dom ((s.state.placeFor e).target s.state.dom) ∧ ∃ found ∈ rest,
      ∀ a, s.state.dom.Encloses a ((s.state.placeFor e).target s.state.dom) → s.state.dom.Encloses a found.node := by
  have hplace : s.state.placeFor e = c.placeFor e := by rw [h.same]; rfl
  obtain ⟨found, hfound, hhtml, hcases⟩ := hc.placeFor_cases heq hbefore hname
  have hmem : found ∈ c.opened := heq ▸ List.mem_append_right before hfound
  have hhosts := hc.held.hosts found hmem hhtml
  have hvoid := fun {i} (hi : NotVoid c.dom i) => hi.of_content h.carries.content
  have habove : c.dom.Above σ.body found.node → s.state.dom.Above σ.body found.node := fun habove =>
    (h.carries.above _ _ habove).resolve_right (h.not_encloses_last (hrest ▸ hfound))
  rw [hplace]
  rcases hcases with hcase | ⟨htable, below, hcase⟩
  · rw [hcase]
    refine ⟨⟨hvoid hhosts.toNotVoid, ?_⟩, found, hrest ▸ hfound, fun a ha => ha⟩
    rcases Relation.reflTransGen_iff_eq_or_transGen.mp hhosts.inside with heq | hin
    · rw [Place.target, heq]
      exact .refl
    · exact (habove hin).to_reflTransGen
  · have hne := hc.ne_body hmem (by rw [htable]; decide)
    have hin := habove ((Relation.reflTransGen_iff_eq_or_transGen.mp hhosts.inside).resolve_left hne)
    obtain ⟨p, hp, hinside⟩ := above_iff_exists_parent.mp hin
    have htarget : (c.placeFor e).target s.state.dom = p := by
      rw [hcase, Place.target, outerNode, hp]
      rfl
    rw [htarget]
    refine ⟨⟨?_, hinside⟩, found, hrest ▸ hfound, fun a ha => ha.tail hp⟩
    exact (h.carries.parents _ p hp).elim (fun hold => hvoid (hc.held.keeps.parents _ p hold)) id

/-- The order of the open elements once the outermost copy is at its place. -/
theorem ordered_move (h : s.Ready σ c front rest) {target : NodeId} {found : OpenElement} (hfound : found ∈ rest)
    (htarget : ∀ a, s.state.dom.Encloses a target → s.state.dom.Encloses a found.node) :
    (front ++ s.kept ++ rest).Pairwise fun inner outer =>
      ¬ ((s.state.dom.detach (some s.last)).append (some target) (some s.last)).Encloses inner.node outer.node := by
  have hordered := h.ordered
  rw [List.pairwise_append] at hordered ⊢
  obtain ⟨hinner, houter, hacross⟩ := hordered
  have hcases := fun {a b} => encloses_of_move_cases (a := a) (b := b) (parent?_move h.sound.last target)
  refine ⟨hinner.imp_of_mem fun ha _ hnot hab => ?_, houter.imp_of_mem fun _ hb hnot hab => ?_, fun a ha b hb hab => ?_⟩
  · exact (hcases hab).elim hnot fun hat => h.not_encloses ha hfound (htarget _ hat.1)
  · exact (hcases hab).elim hnot fun hlb => h.not_encloses_last hb hlb.2
  · exact (hcases hab).elim (hacross a ha b hb) fun hlb => h.not_encloses_last hb hlb.2

end Split.Ready

/-- The order of the open elements once a copy is inside of the block. -/
theorem ordered_nested {dom : Dom} (hwf : dom.WellFormed) (name : Name) {content : Content}
    {above rest : List OpenElement} {block : OpenElement} (hwf' : (dom.nested content block.node).WellFormed)
    (hlt : ∀ e ∈ above ++ block :: rest, e.node < dom.size)
    (h : (above ++ block :: rest).Pairwise fun inner outer => ¬ dom.Encloses inner.node outer.node) :
    (above ++ ⟨dom.size, name⟩ :: block :: rest).Pairwise fun inner outer =>
      ¬ (dom.nested content block.node).Encloses inner.node outer.node := by
  have hparent := parent?_nested (p := block.node) content hwf
  have hnew : ∀ i, dom.parent? (some i) ≠ some dom.size := fun i hi => lt_irrefl _ (hwf.parent_lt hi)
  have hold : ∀ a ∈ above ++ block :: rest, ∀ b ∈ above ++ block :: rest,
      (dom.nested content block.node).Encloses a.node b.node → dom.Encloses a.node b.node :=
    fun a ha b hb hab => (encloses_of_nest hparent hnew (hlt a ha).ne hab).1 (hlt b hb).ne
  obtain ⟨habove, hrest, hacross⟩ := List.pairwise_append.mp h
  refine List.pairwise_append.mpr ⟨?_, List.pairwise_cons.mpr ⟨fun b hb hab => ?_, ?_⟩, fun a ha b hb hab => ?_⟩
  · exact habove.imp_of_mem fun ha hb hnot hab =>
      hnot (hold _ (List.mem_append_left _ ha) _ (List.mem_append_left _ hb) hab)
  · have hb' : b ∈ above ++ block :: rest := List.mem_append_right _ hb
    refine not_encloses_nest hparent hwf' hnew (hlt block (by simp)).ne (hlt b hb').ne ?_ hab
    rcases List.mem_cons.mp hb with rfl | hb
    · exact .inl rfl
    · exact .inr ((List.pairwise_cons.mp hrest).1 b hb)
  · exact hrest.imp_of_mem fun ha hb hnot hab =>
      hnot (hold _ (List.mem_append_right _ ha) _ (List.mem_append_right _ hb) hab)
  · have ha' : a ∈ above ++ block :: rest := List.mem_append_left _ ha
    rcases List.mem_cons.mp hb with rfl | hb
    · exact hacross a ha block List.mem_cons_self
        ((encloses_of_nest hparent hnew (hlt a ha').ne hab).2 rfl)
    · exact hacross a ha b hb (hold a ha' b (List.mem_append_right _ hb) hab)

namespace Ready

variable {σ : Setting} {modes : List InsertionMode} {mode : InsertionMode} {c : Construction}
  {above between outer : List OpenElement} {block e : OpenElement} {node : NodeId} {tag : Tag}

/-- A split begins with nothing copied. -/
theorem split_start (h : c.Ready σ modes mode) (heq : c.opened = above ++ block :: (between ++ e :: outer)) :
    Split.Ready σ c (above ++ [block]) outer ⟨c, block.node, none, []⟩ where
  sound := ⟨h.sound, h.held.lt_size (by simp [heq]), by simp⟩
  same := rfl
  carries := .refl σ c.dom block.node
  listed := h.listed
  named x hx := h.held.named x (by
    rw [heq]
    simp only [List.append_nil, List.mem_append, List.mem_cons] at hx ⊢
    tauto)
  ordered := by
    refine h.held.ordered.sublist ?_
    simp [heq]
  ordinary := by simp
  inside := by simp
  last := ⟨block, by simp, rfl⟩

/-- Outside of ordinary elements there is one that is not the root. -/
theorem exists_outer (h : c.Ready σ modes mode) {before rest : List OpenElement} (heq : c.opened = before ++ rest)
    (hbefore : ∀ x ∈ before, isOrdinary x.name) : ∃ o after, rest = o :: after ∧ o.name ≠ .html "html" :=
  (h.closeInner heq hbefore).exists_current

/-- With the outermost copy at its place, the block and the copies are open where the element was. -/
theorem placed (h : c.Ready σ modes mode) {s : Split} (hs : s.Ready σ c (above ++ [block]) outer)
    (heq : c.opened = (above ++ block :: (between ++ [e])) ++ outer)
    (hordinary : ∀ x ∈ above ++ block :: (between ++ [e]), isOrdinary x.name) {target : NodeId}
    (hhosts : σ.Hosts s.state.dom target) {found : OpenElement} (hfound : found ∈ outer)
    (htarget : ∀ a, s.state.dom.Encloses a target → s.state.dom.Encloses a found.node)
    (hcan : s.state.dom.CanHold target) : Ready σ modes mode { c with
      dom := (s.state.dom.detach (some s.last)).append (some target) (some s.last)
      formatting := s.state.formatting
      opened := above ++ block :: (s.kept ++ outer) } := by
  have hnot : ¬ s.state.dom.Encloses s.last target := fun henc => hs.not_encloses_last hfound (htarget _ henc)
  have hext := hs.carries.extends hs.sound.last hhosts hnot
  have hparent := parent?_move hs.sound.last target
  have hlist : above ++ block :: (s.kept ++ outer) = above ++ [block] ++ s.kept ++ outer := by simp
  have hnames : ∀ i, ((s.state.dom.detach (some s.last)).append (some target) (some s.last)).name? (some i) =
      s.state.dom.name? (some i) := fun i => name?_congr (by simp)
  have hkept : ∀ x ∈ s.kept, ((s.state.dom.detach (some s.last)).append (some target) (some s.last)).Encloses
      σ.body x.node := by
    intro x hx
    have hin := Setting.Extends.encloses_of_moved (fun j hj => by rw [hparent, if_neg hj]) hhosts.inside hnot
    exact (hin.tail (by rw [hparent, if_pos rfl])).trans (encloses_move_self hparent (hs.inside x hx))
  obtain ⟨inner, hinner, hnests⟩ := h.nested
  obtain ⟨rest, rfl, hrest⟩ := exists_inner (hinner.symm.trans heq)
    fun x hx => not_outermost_of_isOrdinary (hordinary x hx)
  have hfront : ∀ x ∈ above ++ block :: s.kept, isOrdinary x.name := fun x hx => by
    simp only [List.mem_append, List.mem_cons] at hx
    rcases hx with hx | rfl | hx
    · exact hordinary x (by simp [hx])
    · exact hordinary x (by simp)
    · exact (hs.ordinary x hx).1
  have hdepth : templateDepth ((above ++ block :: (s.kept ++ outer)).map (·.name)) ≤ σ.depth := by
    refine (templateDepth_le_of_filter ?_).trans h.depth
    have hnone : (s.kept.map (·.name)).filter isTemplate = [] := List.filter_eq_nil_iff.mpr fun name hname => by
      obtain ⟨x, hx, rfl⟩ := List.mem_map.mp hname
      simp [(hs.ordinary x hx).2]
    have hold : c.opened = above ++ [block] ++ (between ++ [e]) ++ outer := by simp [heq]
    rw [hlist, hold]
    simp only [List.map_append, List.filter_append, hnone, List.append_nil]
    exact ((List.sublist_append_left _ _).append_right _)
  refine ⟨⟨?_, hext.keeps h.held.keeps, ?_, ?_, ?_⟩, ⟨above ++ block :: (s.kept ++ rest), by simp [hrest], ?_⟩,
    hs.listed.mono fun i name hname => (hnames i).trans hname, fun node hnode => hext.named (h.form node hnode),
    h.templateModes, h.mode, hdepth⟩
  · have hstart : Holds s.state.dom (above ++ block :: (s.kept ++ (rest ++ σ.outermost))) :=
      ⟨hs.sound.state.wellFormed, hs.sound.state.leaves, hs.sound.state.document, fun x hx =>
        .of_name (by rw [hs.named x (by rwa [← hlist, hrest])]; rfl)⟩
    rw [hrest]
    exact hstart.grow (hs.sound.state.wellFormed.move hcan.lt_size hs.sound.last hnot)
      (KeepsHolders.move hcan hs.sound.last)
  · intro x hx
    rw [hnames, hs.named x (hlist ▸ hx)]
  · intro x hx hname
    by_cases hxkept : x ∈ s.kept
    · have hnamed := hs.named x (by simp [hxkept])
      exact ⟨.of_name (by rw [hnames, hnamed]) (not_isVoidElement_of_isOrdinary (hs.ordinary x hxkept).1),
        hkept x hxkept⟩
    · refine hext.hosts (h.held.hosts x ?_ hname)
      rw [heq]
      simp only [List.mem_append, List.mem_cons] at hx ⊢
      tauto
  · rw [hlist]
    exact hs.ordered_move hfound htarget
  · rw [show above ++ block :: (s.kept ++ rest) = (above ++ block :: s.kept) ++ rest by simp]
    exact hnests.replace (by simp) hordinary hfront

/-- A new element is put around what is in the block. -/
theorem nest (h : c.Ready σ modes mode) {rest : List OpenElement} {name : Name} {attributes : List Attribute}
    (heq : c.opened = above ++ block :: rest) (hordinary : ∀ x ∈ above ++ [block], isOrdinary x.name)
    (hname : isOrdinary name) (htemplate : isTemplate name = false) (hfits : σ.Allows (.element name attributes))
    {entries : List FormattingEntry}
    (hlisted : Listed σ (c.dom.nested (.element name attributes) block.node) entries) :
    Ready σ modes mode { c with
      dom := c.dom.nested (.element name attributes) block.node
      formatting := entries
      opened := above ++ ⟨c.dom.size, name⟩ :: block :: rest } := by
  have hblock : block ∈ c.opened := by simp [heq]
  have hcan := h.sound.opened block hblock
  have hhosts := h.held.hosts block hblock fun hhtml => by
    have hnot := hordinary block (by simp)
    rw [hhtml] at hnot
    exact absurd hnot (by decide)
  have hext := Setting.Extends.nested h.sound.wellFormed hhosts.toNotVoid hfits
    (not_isVoidElement_of_isOrdinary hname)
  have hnew : (c.dom.nested (.element name attributes) block.node).name? (some c.dom.size) = some name := by
    rw [name?, content?_nested, if_pos rfl]
  have hkeeps := KeepsHolders.nestChildren h.sound.wellFormed hcan (.element name attributes) (by simp)
  have hwf := h.sound.wellFormed.nestChildren hcan.lt_size (.element name attributes)
  have hholds := h.sound.grow hwf ((KeepsHolders.create _ _).trans hkeeps)
  have hparent := parent?_nested (p := block.node) (.element name attributes) h.sound.wellFormed c.dom.size
  have hordered := ordered_nested h.sound.wellFormed name hwf
    (fun x hx => h.held.lt_size (heq ▸ hx)) (heq ▸ h.held.ordered)
  rw [if_pos rfl] at hparent
  change Holds (c.dom.nested (.element name attributes) block.node) c.opened at hholds
  generalize c.dom.nested (.element name attributes) block.node = dom at *
  obtain ⟨inner, hinner, hnests⟩ := h.nested
  obtain ⟨between, rfl, hrest⟩ := exists_inner (hinner.symm.trans (heq.trans (List.append_cons above block rest)))
    fun x hx => not_outermost_of_isOrdinary (hordinary x hx)
  have hin : ∀ x ∈ above ++ ⟨c.dom.size, name⟩ :: block :: rest, x = ⟨c.dom.size, name⟩ ∨ x ∈ c.opened := fun x hx => by
    rw [heq]
    simp only [List.mem_append, List.mem_cons] at hx ⊢
    tauto
  refine ⟨⟨⟨hholds.wellFormed, hholds.leaves, hholds.document, fun x hx => ?_⟩, hext.keeps h.held.keeps, fun x hx => ?_,
    fun x hx hhtml => ?_, hordered⟩, ⟨above ++ ⟨c.dom.size, name⟩ :: block :: between, by simp [hrest], ?_⟩, hlisted,
    fun node hnode => hext.named (h.form node hnode), h.templateModes, h.mode, ?_⟩
  · rcases hin x hx with rfl | hx
    · exact .of_name (by rw [hnew]; rfl)
    · exact hholds.opened x hx
  · rcases hin x hx with rfl | hx
    · exact hnew
    · exact hext.named (h.held.named x hx)
  · rcases hin x hx with rfl | hx
    · exact ⟨.of_name hnew (not_isVoidElement_of_isOrdinary hname), (hext.encloses hhosts.inside).tail hparent⟩
    · exact hext.hosts (h.held.hosts x hx hhtml)
  · rw [show above ++ ⟨c.dom.size, name⟩ :: block :: between =
      (above ++ [⟨c.dom.size, name⟩, block]) ++ between by simp]
    refine hnests.replace (by simp) hordinary fun x hx => ?_
    simp only [List.mem_append, List.mem_cons, List.not_mem_nil, or_false] at hx
    rcases hx with hx | rfl | rfl
    · exact hordinary x (by simp [hx])
    · exact hname
    · exact hordinary x (by simp)
  · refine (templateDepth_le_of_filter ?_).trans h.depth
    rw [heq]
    simp [List.filter_cons, htemplate]

/-- The entries after a split, in which the new copy takes the place that the bookmark tells. -/
def splitEntries (bookmark : Option NodeId) (node : NodeId) (entry : FormattingEntry)
    (entries : List FormattingEntry) : List FormattingEntry :=
  match bookmark with
  | none => replaceEntry node entry entries
  | some mark => removeEntry node (insertEntryAfter mark entry entries)

theorem splitAround_eq (c : Construction) (node : NodeId) (tag : Tag) (above : List OpenElement)
    (block : OpenElement) (between : List OpenElement) (o : OpenElement) (after : List OpenElement) :
    let s := Construction.splitBetween ⟨c, block.node, none, []⟩ 0 between
    let moved := s.state.moveInto (s.state.placeFor o) s.last
    c.splitAround node tag above block between (o :: after) = { moved with
      dom := moved.dom.nested (.element (.html tag.label) (tag.attributesIn .html)) block.node
      formatting := splitEntries s.bookmark node (.element moved.dom.size tag) moved.formatting
      opened := above ++ ⟨moved.dom.size, .html tag.label⟩ :: block :: s.kept ++ (o :: after) } := rfl

theorem splitAround (h : c.Ready σ modes mode) (node : NodeId) (hlabel : isFormatting tag.label)
    (hfits : σ.FitsTag tag) (heq : c.opened = above ++ block :: (between ++ e :: outer))
    (hordinary : ∀ x ∈ above ++ block :: (between ++ [e]), isOrdinary x.name) :
    (c.splitAround node tag above block between outer).Ready σ modes mode := by
  have hs := (h.split_start heq).splitBetween 0 between
  have hsplit : c.opened = (above ++ block :: (between ++ [e])) ++ outer := by simp [heq]
  obtain ⟨o, after, rfl, hohtml⟩ := h.exists_outer hsplit hordinary
  have hwhere := hs.target h hsplit rfl (fun x hx => not_endsFostering_of_isOrdinary (hordinary x hx)) hohtml
  rw [splitAround_eq]
  generalize Construction.splitBetween ⟨c, block.node, none, []⟩ 0 between = s at *
  obtain ⟨hhosts, found, hfound, htarget⟩ := hwhere
  have hcan : s.state.dom.CanHold ((s.state.placeFor o).target s.state.dom) :=
    Place.target_canHold hs.sound.state (placeFor_fits hs.sound.state
      (.of_name (by rw [hs.named o (by simp)]; rfl)))
  have hplaced := h.placed hs hsplit hordinary hhosts hfound htarget hcan
  have hmove := moveInto_of_not_encloses (s.state.placeFor o) hs.sound.state.wellFormed
    fun henc => hs.not_encloses_last hfound (htarget _ henc)
  rw [hmove]
  generalize (s.state.dom.detach (some s.last)).append
    (some ((s.state.placeFor o).target s.state.dom)) (some s.last) = dom at hplaced ⊢
  have hnew : (dom.nested (.element (.html tag.label) (tag.attributesIn .html)) block.node).name? (some dom.size) =
      some (.html tag.label) := by rw [name?, content?_nested, if_pos rfl]
  have hlisted : Listed σ (dom.nested (.element (.html tag.label) (tag.attributesIn .html)) block.node)
      s.state.formatting := hplaced.listed.mono fun i name hname => by
    rw [← hname]
    exact name?_congr (by rw [content?_nested, if_neg (lt_size_of_name? (by rw [hname]; rfl)).ne])
  have hentries : Listed σ (dom.nested (.element (.html tag.label) (tag.attributesIn .html)) block.node)
      (splitEntries s.bookmark node (.element dom.size tag) s.state.formatting) := by
    unfold splitEntries
    cases s.bookmark with
    | none => exact hlisted.replaceEntry node ⟨hlabel, hfits, hnew⟩
    | some mark => exact (hlisted.insertEntryAfter mark ⟨hlabel, hfits, hnew⟩).removeEntry node
  have hfront : ∀ x ∈ above ++ [block], isOrdinary x.name := fun x hx =>
    hordinary x (List.mem_append.mpr ((List.mem_append.mp hx).imp_right fun hx => by
      rw [List.mem_singleton.mp hx]
      exact List.mem_cons_self))
  have hnest := hplaced.nest rfl hfront (isOrdinary_of_isFormatting hlabel)
    (not_isTemplate_of_isFormatting hlabel) (hfits.html (ne_body_of_isFormatting hlabel)) hentries
  have hsame := hs.same
  refine hnest.congr rfl (by simp) rfl ?_ ?_ ?_
  · show s.state.form = c.form
    rw [hsame]
  · show s.state.templateModes = c.templateModes
    rw [hsame]
  · show s.state.mode = c.mode
    rw [hsame]

end Ready
end Construction
end Html
end Markup
end CrossRef
