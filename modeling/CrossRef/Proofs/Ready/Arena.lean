import CrossRef.Proofs.Ready.Nesting
import CrossRef.Proofs.Construction.Sound

/-!
What tree construction does to the arena. Elements keep their names and attributes, what is below the body stays
below it, nothing is put into an element that holds nothing, and what is put in is as the tags say.
-/
namespace CrossRef
namespace Markup

/-- What a node may become: an element may get more attributes, and a text more text. -/
def Content.Becomes : Content → Content → Prop
  | .element name attributes, new => ∃ more, new = .element name (attributes ++ more)
  | .text _, new => ∃ text, new = .text text
  | old, new => new = old

/-- An element with the attributes that it lacks. -/
def Content.addMissing (new : List Attribute) : Content → Content
  | .element name attributes => .element name (Dom.addMissing attributes new)
  | content => content

/-- An element that is taken for the body wherever it stands. -/
def Content.isBody : Content → Bool
  | .element name _ => name.label = "body"
  | _ => false

theorem Content.Becomes.refl (content : Content) : content.Becomes content := by
  cases content with
  | element name attributes => exact ⟨[], by simp⟩
  | text text => exact ⟨text, rfl⟩
  | _ => rfl

theorem Content.Becomes.trans {old new newer : Content} (h : old.Becomes new) (h' : new.Becomes newer) :
    old.Becomes newer := by
  cases old with
  | element name attributes =>
    obtain ⟨more, rfl⟩ := h
    obtain ⟨later, rfl⟩ := h'
    exact ⟨more ++ later, by simp⟩
  | text text =>
    obtain ⟨text, rfl⟩ := h
    exact h'
  | _ =>
    obtain rfl := h
    exact h'

namespace Html

/-- What to look at while a text is read: the body and the root that holds it, a property of all contents,
elements that stay where they are, and how many templates may be open inside of each other. -/
structure Setting where
  body : NodeId
  root : NodeId
  fits : Content → Prop
  watched : List (NodeId × List Attribute)
  depth : Nat

/-- A node that can have others below it: the document, or an element that is not void. -/
structure NotVoid (dom : Dom) (i : NodeId) : Prop where
  lt_size : i < dom.size
  name : ∀ name, dom.name? (some i) = some name → isVoidElement name = false
  kind : dom.content? (some i) = some .document ∨ (dom.name? (some i)).isSome

theorem NotVoid.of_name {dom : Dom} {i : NodeId} {name : Name} (hname : dom.name? (some i) = some name)
    (hvoid : isVoidElement name = false) : NotVoid dom i where
  lt_size := Dom.lt_size_of_name? (by simp [hname])
  name other hother := by
    obtain rfl := Option.some_inj.mp (hname.symm.trans hother)
    exact hvoid
  kind := .inr (by simp [hname])

namespace Setting

/-- What may be put in: it is as it should be, and no other body. -/
def Allows (σ : Setting) (content : Content) : Prop := σ.fits content ∧ content.isBody = false

/-- All contents are as they should be, and there is one body. -/
def Suits (σ : Setting) (dom : Dom) : Prop :=
  ∀ i content, dom.content? (some i) = some content → σ.fits content ∧ (content.isBody → i = σ.body)

/-- The contents are as they should be, nothing is in an element that holds nothing, and the watched elements
are below the body with their attributes first. -/
structure Keeps (σ : Setting) (dom : Dom) : Prop where
  document : NotVoid dom Dom.document
  rooted : dom.Above Dom.document σ.body
  contents : σ.Suits dom
  parents : ∀ i p, dom.parent? (some i) = some p → NotVoid dom p
  watched : ∀ w ∈ σ.watched, dom.Above σ.body w.1 ∧
    ∃ name more, dom.content? (some w.1) = some (.element name (w.2 ++ more))

/-- What an edit of the arena leaves as it was, and what it may add. -/
structure Extends (σ : Setting) (dom dom' : Dom) : Prop where
  content : ∀ i old, dom.content? (some i) = some old →
    ∃ new, dom'.content? (some i) = some new ∧ old.Becomes new
  above : ∀ a i, dom.Encloses a σ.body → dom.Above a i → dom'.Above a i
  parents : ∀ i p, dom'.parent? (some i) = some p → dom.parent? (some i) = some p ∨ NotVoid dom' p
  contents : σ.Suits dom → σ.Suits dom'

/-- A node inside the body that can have others below it. -/
structure Hosts (σ : Setting) (dom : Dom) (i : NodeId) : Prop extends NotVoid dom i where
  inside : dom.Encloses σ.body i

variable {σ : Setting} {dom dom' dom'' : Dom} {c p i : NodeId} {content : Content} {name : Name}

namespace Extends

theorem size_le (h : σ.Extends dom dom') : dom.size ≤ dom'.size := by
  by_contra hlt
  obtain ⟨content, hcontent⟩ :=
    Option.isSome_iff_exists.mp ((Dom.content?_isSome_iff dom dom'.size).mpr (Nat.lt_of_not_le hlt))
  obtain ⟨new, hnew, -⟩ := h.content _ _ hcontent
  exact absurd ((Dom.content?_isSome_iff dom' dom'.size).mp (by simp [hnew])) (lt_irrefl _)

theorem name?_eq (h : σ.Extends dom dom') (hi : i < dom.size) :
    dom'.name? (some i) = dom.name? (some i) := by
  obtain ⟨old, hold⟩ := Option.isSome_iff_exists.mp ((Dom.content?_isSome_iff dom i).mpr hi)
  obtain ⟨new, hnew, hbecomes⟩ := h.content i old hold
  rw [Dom.name?, Dom.name?, hold, hnew]
  cases old with
  | element name attributes =>
    obtain ⟨more, rfl⟩ := hbecomes
    rfl
  | text text =>
    obtain ⟨text, rfl⟩ := hbecomes
    rfl
  | _ =>
    obtain rfl := hbecomes
    rfl

theorem named (h : σ.Extends dom dom') (hname : dom.name? (some i) = some name) :
    dom'.name? (some i) = some name :=
  (h.name?_eq (Dom.lt_size_of_name? (by simp [hname]))).trans hname

theorem notVoid (h : σ.Extends dom dom') (hi : NotVoid dom i) : NotVoid dom' i where
  lt_size := hi.lt_size.trans_le h.size_le
  name name hname := hi.name name (by rwa [← h.name?_eq hi.lt_size])
  kind := by
    rw [h.name?_eq hi.lt_size]
    refine hi.kind.imp_left fun hdocument => ?_
    obtain ⟨new, hnew, rfl⟩ := h.content i .document hdocument
    exact hnew

theorem encloses (h : σ.Extends dom dom') (hi : dom.Encloses σ.body i) : dom'.Encloses σ.body i := by
  rcases Relation.reflTransGen_iff_eq_or_transGen.mp hi with rfl | habove
  · exact .refl
  · exact (h.above σ.body i .refl habove).to_reflTransGen

theorem hosts (h : σ.Extends dom dom') (hi : σ.Hosts dom i) : σ.Hosts dom' i :=
  ⟨h.notVoid hi.toNotVoid, h.encloses hi.inside⟩

theorem refl (σ : Setting) (dom : Dom) : σ.Extends dom dom :=
  ⟨fun _ old hold => ⟨old, hold, .refl old⟩, fun _ _ _ hi => hi, fun _ _ hp => .inl hp, fun h => h⟩

theorem trans (h : σ.Extends dom dom') (h' : σ.Extends dom' dom'') : σ.Extends dom dom'' where
  content i old hold := by
    obtain ⟨new, hnew, hbecomes⟩ := h.content i old hold
    obtain ⟨newer, hnewer, hbecomes'⟩ := h'.content i new hnew
    exact ⟨newer, hnewer, hbecomes.trans hbecomes'⟩
  above a i ha hi := by
    refine h'.above a i ?_ (h.above a i ha hi)
    rcases Relation.reflTransGen_iff_eq_or_transGen.mp ha with rfl | habove
    · exact .refl
    · exact (h.above a σ.body ha habove).to_reflTransGen
  parents i p hp := by
    rcases h'.parents i p hp with hp | hp
    · exact (h.parents i p hp).imp_right h'.notVoid
    · exact .inr hp
  contents hfits := h'.contents (h.contents hfits)

theorem keeps (h : σ.Extends dom dom') (hkeeps : σ.Keeps dom) : σ.Keeps dom' where
  document := h.notVoid hkeeps.document
  rooted := h.above Dom.document σ.body hkeeps.rooted.to_reflTransGen hkeeps.rooted
  contents := h.contents hkeeps.contents
  parents i p hp := by
    rcases h.parents i p hp with hold | hnew
    · exact h.notVoid (hkeeps.parents i p hold)
    · exact hnew
  watched w hw := by
    obtain ⟨habove, name, more, hcontent⟩ := hkeeps.watched w hw
    obtain ⟨new, hnew, later, rfl⟩ := h.content w.1 _ hcontent
    exact ⟨h.above σ.body w.1 .refl habove, name, more ++ later, by simp [hnew]⟩

/-! ### Single edits -/

theorem create (hfits : σ.Allows content) : σ.Extends dom (dom.create content).1 where
  content i old hold := by
    refine ⟨old, ?_, .refl old⟩
    rw [Dom.content?_create, if_neg, hold]
    exact (Dom.content?_isSome_iff dom i).mp (by simp [hold]) |>.ne
  above a i _ hi := hi.mono fun _ _ hp => by simpa using hp
  parents i p hp := .inl (by simpa using hp)
  contents hall i new hnew := by
    rw [Dom.content?_create] at hnew
    split_ifs at hnew
    · obtain rfl := Option.some_inj.mp hnew
      exact ⟨hfits.1, fun hbody => by simp [hfits.2] at hbody⟩
    · exact hall i new hnew

/-- A node without a parent is put into another. -/
theorem append (hp : NotVoid dom p) (hc : c < dom.size) (hparent : dom.parent? (some c) = none) :
    σ.Extends dom (dom.append (some p) (some c)) where
  content i old hold := ⟨old, by simpa using hold, .refl old⟩
  above a i _ hi := hi.mono fun j a hj => by
    rw [Dom.parent?_append _ _ _ hc, if_neg, hj]
    rintro rfl
    simp [hparent] at hj
  parents i q hq := by
    rw [Dom.parent?_append _ _ _ hc] at hq
    split_ifs at hq with hic
    · obtain rfl := Option.some_inj.mp hq
      exact .inr ⟨by simpa using hp.lt_size, fun name hname => hp.name name (by simpa [Dom.name?] using hname),
        by simpa [Dom.name?] using hp.kind⟩
    · exact .inl hq
  contents hall i new hnew := hall i new (by simpa using hnew)

theorem appendNew (hp : NotVoid dom p) (hfits : σ.Allows content) :
    σ.Extends dom ((dom.create content).1.append (some p) (some dom.size)) :=
  (create hfits).trans (append ((create hfits).notVoid hp) (by simp) (by simpa using Dom.parent?_size dom))

theorem appendText (hp : NotVoid dom p) (hall : ∀ text, σ.fits (.text text)) (text : String) :
    σ.Extends dom (dom.appendText (some p) text) := by
  rcases Dom.appendText_cases dom p text with ⟨old, hold, he⟩ | he
  · rw [he]
    obtain ⟨last, hlast⟩ : ∃ last, dom.lastChild? (some p) = some last := by
      cases hlast : dom.lastChild? (some p) with
      | none => simp [hlast] at hold
      | some last => exact ⟨last, rfl⟩
    rw [hlast] at hold ⊢
    have hcontent : ∀ i, (dom.modify (some last) fun n => { n with content := .text (old ++ text) }).content?
        (some i) = if i = last then some (.text (old ++ text)) else dom.content? (some i) := by
      intro i
      split_ifs with hi
      · subst hi
        obtain ⟨n, hn, -⟩ := Option.map_eq_some_iff.mp hold
        simp [Dom.content?, Dom.node?_modify, hn]
      · rw [Dom.content?, Dom.node?_modify, if_neg (by simpa using Ne.symm hi), Dom.content?]
    have hlinks := @Dom.sameLinks_modify dom (some last)
      (f := fun n => { n with content := .text (old ++ text) }) fun n => rfl
    refine ⟨fun i content hi => ?_, fun a i _ hi => ?_, fun i q hq => .inl ?_, fun hfits i content hi => ?_⟩
    · rw [hcontent]
      split_ifs with hlast
      · subst hlast
        obtain rfl := Option.some_inj.mp (hold.symm.trans hi)
        exact ⟨_, rfl, _, rfl⟩
      · exact ⟨content, hi, .refl content⟩
    · exact hi.mono fun j a hj => by rwa [hlinks.parent?_eq]
    · rwa [hlinks.parent?_eq] at hq
    · rw [hcontent] at hi
      split_ifs at hi
      · exact Option.some_inj.mp hi ▸ ⟨hall _, by simp [Content.isBody]⟩
      · exact hfits i content hi
  · rw [he]
    exact appendNew hp ⟨hall text, rfl⟩

theorem place (hp : NotVoid dom p) (hall : ∀ text, σ.fits (.text text)) (text : String) :
    σ.Extends dom (dom.place (some p) (.text text)) := appendText hp hall text

/-- The way down to a node that a moved node does not enclose stays. -/
theorem encloses_of_moved {a t : NodeId} (hparent : ∀ j, j ≠ c → dom'.parent? (some j) = dom.parent? (some j))
    (h : dom.Encloses a t) (hct : ¬ dom.Encloses c t) : dom'.Encloses a t := by
  induction h with
  | refl => exact .refl
  | @tail q j hq hj ih =>
    have hne : j ≠ c := fun heq => hct (heq ▸ .refl)
    exact (ih fun hcq => hct (hcq.tail hj)).tail (by rw [hparent j hne, hj])

/-- What is below a node stays below it when another is moved to a place inside of it. -/
theorem above_move {a target : NodeId} (hc : c < dom.size) (hct : ¬ dom.Encloses c target)
    (ht : dom.Encloses a target) (hi : dom.Above a i) :
    ((dom.detach (some c)).append (some target) (some c)).Above a i := by
  have hparent : ∀ j, ((dom.detach (some c)).append (some target) (some c)).parent? (some j) =
      if j = c then some target else dom.parent? (some j) := by
    intro j
    rw [Dom.parent?_append _ _ _ (by simpa using hc), Dom.parent?_detach]
    split_ifs <;> rfl
  have hmoved : ((dom.detach (some c)).append (some target) (some c)).Above a c :=
    .tail' (encloses_of_moved (fun j hj => by rw [hparent, if_neg hj]) ht hct) (by rw [hparent, if_pos rfl])
  induction hi with
  | @single j hj =>
    by_cases hjc : j = c
    · rw [hjc]
      exact hmoved
    · exact .single (by rw [hparent, if_neg hjc, hj])
  | @tail q j _ hj ih =>
    by_cases hjc : j = c
    · rw [hjc]
      exact hmoved
    · exact ih.tail (by rw [hparent, if_neg hjc, hj])

theorem move {target : NodeId} (ht : σ.Hosts dom target) (hc : c < dom.size)
    (hct : ¬ dom.Encloses c target) :
    σ.Extends dom ((dom.detach (some c)).append (some target) (some c)) where
  content i old hold := ⟨old, by simpa using hold, .refl old⟩
  above a i ha hi := above_move hc hct (ha.trans ht.inside) hi
  parents i q hq := by
    rw [Dom.parent?_append _ _ _ (by simpa using hc), Dom.parent?_detach] at hq
    split_ifs at hq with hic
    · obtain rfl := Option.some_inj.mp hq
      exact .inr ⟨by simpa using ht.lt_size, fun name hname => ht.name name (by simpa [Dom.name?] using hname),
        by simpa [Dom.name?] using ht.kind⟩
    · exact .inl hq
  contents hall i new hnew := hall i new (by simpa using hnew)

theorem moveAll {target : NodeId} {nodes : List NodeId} (ht : σ.Hosts dom target)
    (hnodes : ∀ c ∈ nodes, c < dom.size ∧ ¬ dom.Encloses c target) :
    σ.Extends dom (dom.moveAll target nodes) := by
  induction nodes generalizing dom with
  | nil => exact .refl σ dom
  | cons c nodes ih =>
    obtain ⟨hc, hct⟩ := hnodes c (by simp)
    have hmove := move ht hc hct
    refine hmove.trans (ih (hmove.hosts ht) fun d hd => ?_)
    obtain ⟨hdlt, hdt⟩ := hnodes d (by simp [hd])
    exact ⟨by simpa using hdlt, fun henc => hdt (Dom.encloses_of_move hc hct henc)⟩

/-- An element gets the attributes that it lacks. -/
theorem addMissingAttributes (dom : Dom) (i : NodeId) (new : List Attribute)
    (hfits : ∀ name old, dom.content? (some i) = some (.element name old) → σ.fits (.element name old) →
      σ.fits (.element name (Dom.addMissing old new))) :
    σ.Extends dom (dom.addMissingAttributes (some i) new) := by
  have hcontent : ∀ j, (dom.addMissingAttributes (some i) new).content? (some j) =
      if j = i then (dom.content? (some j)).map (·.addMissing new) else dom.content? (some j) := by
    intro j
    rw [Dom.addMissingAttributes, Dom.content?, Dom.node?_modify, Dom.content?]
    split_ifs with hij hji hji
    · cases hnode : dom.node? (some j) with
      | none => rfl
      | some n => cases hn : n.content <;> simp [hn, Content.addMissing]
    · exact absurd (Option.some_inj.mp hij).symm hji
    · exact absurd (congrArg some hji.symm) hij
    · rfl
  have hmore : ∀ old : List Attribute, ∃ more, Dom.addMissing old new = old ++ more := by
    clear hcontent hfits
    induction new with
    | nil => exact fun old => ⟨[], by simp [Dom.addMissing]⟩
    | cons a rest ih =>
      intro old
      rw [Dom.addMissing]
      split_ifs
      · exact ih old
      · obtain ⟨more, hmore⟩ := ih (old ++ [a])
        exact ⟨a :: more, by simp [hmore]⟩
  have hlinks := Dom.sameLinks_addMissingAttributes dom (some i) new
  refine ⟨fun j old hj => ?_, fun a j _ hj => ?_, fun j q hq => .inl ?_, fun hall j content hj => ?_⟩
  · rw [hcontent, hj]
    split_ifs
    · cases old with
      | element name old =>
        obtain ⟨more, hmore⟩ := hmore old
        exact ⟨_, rfl, more, congrArg (Content.element name) hmore⟩
      | _ => exact ⟨_, rfl, .refl _⟩
    · exact ⟨old, rfl, .refl old⟩
  · exact hj.mono fun k a hk => by rwa [hlinks.parent?_eq]
  · rwa [hlinks.parent?_eq] at hq
  · rw [hcontent] at hj
    split_ifs at hj with hji
    · obtain ⟨old, hold, rfl⟩ := Option.map_eq_some_iff.mp hj
      obtain ⟨hfitsOld, hbody⟩ := hall j old hold
      cases old with
      | element name old => exact ⟨hfits name old (hji ▸ hold) hfitsOld, hbody⟩
      | _ => exact ⟨hfitsOld, hbody⟩
    · exact hall j content hj

end Extends
end Setting
end Html
end Markup
end CrossRef
