import CrossRef.Markup.Event
import CrossRef.Proofs.Dom.Order

/-!
The events of a node are those of the recursion over its children. However deep the tree is, the list
of pending work is emptied in at most two steps for each node, and what is sent on the way is properly
nested.
-/
namespace CrossRef
namespace Markup

/-- The events of a node with this content, around the events of its children. -/
def eventsAround (content : Option Content) (inner : List Event) : List Event :=
  match content with
  | none => []
  | some .document => inner
  | some (.element name attributes) => .opened name attributes :: inner ++ [.closed name]
  | some (.text text) => [.text text]
  | some (.comment text) => [.comment text]
  | some (.doctype name) => [.doctype name]

/-- An event that neither opens nor closes an element. -/
def Event.IsLeaf : Event → Prop
  | opened _ _ | closed _ => False
  | text _ | comment _ | doctype _ => True

/-- Every element that is opened is closed under the same name, after the elements inside it and before
those that follow, and nothing else is closed. -/
inductive Nested : List Event → Prop
  | nil : Nested []
  | leaf {event : Event} {rest : List Event} : event.IsLeaf → Nested rest → Nested (event :: rest)
  | element {name : Name} {attributes : List Attribute} {inner rest : List Event} :
    Nested inner → Nested rest → Nested (.opened name attributes :: inner ++ .closed name :: rest)

theorem Nested.append {first second : List Event} (h : Nested first) (h' : Nested second) :
    Nested (first ++ second) := by
  induction h with
  | nil => exact h'
  | leaf hevent _ ih => exact .leaf hevent ih
  | element hinner _ _ ih => simpa using Nested.element hinner ih

theorem Nested.around {content : Option Content} {inner : List Event} (h : Nested inner) :
    Nested (eventsAround content inner) := by
  cases content with
  | none => exact .nil
  | some content =>
    cases content with
    | document => exact h
    | element name attributes => exact .element h .nil
    | text text => exact .leaf trivial .nil
    | comment text => exact .leaf trivial .nil
    | doctype name => exact .leaf trivial .nil

theorem Nested.flatMap {nodes : List NodeId} {f : NodeId → List Event}
    (h : ∀ i ∈ nodes, Nested (f i)) : Nested (nodes.flatMap f) := by
  induction nodes with
  | nil => exact .nil
  | cons i nodes ih =>
    exact (h i List.mem_cons_self).append (ih fun j hj => h j (List.mem_cons_of_mem i hj))

namespace Dom

variable {dom : Dom} {i : NodeId} {work : Pending} {first second : List Pending} {steps more : Nat}
  {events others : List Event}

/-! ### Taking up work -/

/-- What is sent when a piece of work is taken up. -/
def sent (dom : Dom) : Pending → List Event
  | .close name => [.closed name]
  | .visit i =>
    match dom.content? (some i) with
    | none | some .document => []
    | some (.element name attributes) => [.opened name attributes]
    | some (.text text) => [.text text]
    | some (.comment text) => [.comment text]
    | some (.doctype name) => [.doctype name]

/-- The work that is put in the place of a piece of work. -/
def pushed (dom : Dom) : Pending → List Pending
  | .close _ => []
  | .visit i =>
    match dom.content? (some i) with
    | some .document => (dom.children (some i)).map .visit
    | some (.element name _) => (dom.children (some i)).map .visit ++ [.close name]
    | _ => []

/-- The work is done after this many steps, and these are the events sent on the way. -/
inductive Sends (dom : Dom) : List Pending → Nat → List Event → Prop
  | done : Sends dom [] 0 []
  | step {work : Pending} {rest : List Pending} {steps : Nat} {events : List Event} :
    Sends dom (dom.pushed work ++ rest) steps events →
      Sends dom (work :: rest) (steps + 1) (dom.sent work ++ events)

theorem eventsFrom_nil (dom : Dom) (fuel : Nat) : dom.eventsFrom fuel [] = [] := by
  cases fuel <;> rfl

theorem eventsFrom_cons (dom : Dom) (fuel : Nat) (work : Pending) (rest : List Pending) :
    dom.eventsFrom (fuel + 1) (work :: rest) =
      dom.sent work ++ dom.eventsFrom fuel (dom.pushed work ++ rest) := by
  cases work with
  | close name => rfl
  | visit i =>
    rw [eventsFrom, sent, pushed]
    split <;> simp_all

namespace Sends

/-- Work that stands behind other work waits until that is done. -/
theorem append (h : dom.Sends first steps events) (h' : dom.Sends second more others) :
    dom.Sends (first ++ second) (steps + more) (events ++ others) := by
  induction h with
  | done => simpa using h'
  | @step work rest steps events _ ih =>
    have hstep := Sends.step (List.append_assoc _ _ _ ▸ ih)
    rwa [Nat.add_right_comm, List.append_assoc]

/-- Closing an element, as the only work. -/
theorem close (dom : Dom) (name : Name) : dom.Sends [.close name] 1 [.closed name] := .step .done

/-- Visiting a node takes a step for it, the steps for its children and one to close it. Without
children to visit, one step is enough. -/
theorem visit (h : dom.Sends ((dom.children (some i)).map .visit) steps events) :
    ∃ more ≤ steps + 2, dom.Sends [.visit i] more (eventsAround (dom.content? (some i)) events) := by
  have hstep : ∀ {n inner}, dom.Sends (dom.pushed (.visit i)) n inner →
      dom.Sends [.visit i] (n + 1) (dom.sent (.visit i) ++ inner) := fun hpushed =>
    .step ((List.append_nil _).symm ▸ hpushed)
  simp only [pushed, sent] at hstep
  cases hcontent : dom.content? (some i) with
  | none =>
    rw [hcontent] at hstep
    exact ⟨1, by omega, hstep .done⟩
  | some content =>
    rw [hcontent] at hstep
    cases content with
    | document => exact ⟨steps + 1, by omega, hstep h⟩
    | element name attributes => exact ⟨steps + 2, le_rfl, hstep (h.append (.close dom name))⟩
    | text text => exact ⟨1, by omega, hstep .done⟩
    | comment text => exact ⟨1, by omega, hstep .done⟩
    | doctype name => exact ⟨1, by omega, hstep .done⟩

/-- With enough fuel all events are sent. -/
theorem eventsFrom_eq (h : dom.Sends first steps events) {fuel : Nat} (hfuel : steps ≤ fuel) :
    dom.eventsFrom fuel first = events := by
  induction h generalizing fuel with
  | done => exact eventsFrom_nil dom fuel
  | step _ ih =>
    obtain ⟨fuel, rfl⟩ : ∃ n, fuel = n + 1 := ⟨fuel - 1, by omega⟩
    rw [eventsFrom_cons, ih (by omega)]

end Sends

/-! ### The recursion over the children -/

theorem eventsOf_of_size_le (hi : dom.size ≤ i) (depth : Nat) : dom.eventsOf depth i = [] := by
  cases depth with
  | zero => rfl
  | succ depth => rw [eventsOf, content?_of_size_le hi]

theorem nested_eventsOf (dom : Dom) (depth : Nat) (i : NodeId) : Nested (dom.eventsOf depth i) := by
  induction depth generalizing i with
  | zero => exact .nil
  | succ depth ih => exact (Nested.flatMap fun c _ => ih c).around

namespace WellFormed

theorem eventsOf_congr (h : dom.WellFormed) {m n : Nat} (hm : dom.height i < m)
    (hn : dom.height i < n) : dom.eventsOf m i = dom.eventsOf n i := by
  induction m generalizing i n with
  | zero => omega
  | succ m ih =>
    obtain ⟨n, rfl⟩ : ∃ k, n = k + 1 := ⟨n - 1, by omega⟩
    have hinner : (dom.children (some i)).flatMap (dom.eventsOf m) =
        (dom.children (some i)).flatMap (dom.eventsOf n) :=
      List.flatMap_congr fun c hc => by
        have hheight := h.height_lt (h.mem_children_iff.mp hc)
        exact ih (by omega) (by omega)
    rw [eventsOf, eventsOf, hinner]

/-- The events of a node, from those of its children. -/
theorem eventsOf_eq (h : dom.WellFormed) (i : NodeId) :
    dom.eventsOf dom.size i = eventsAround (dom.content? (some i))
      ((dom.children (some i)).flatMap (dom.eventsOf dom.size)) := by
  by_cases hi : i < dom.size
  · obtain ⟨k, hk⟩ := Nat.exists_eq_add_one_of_ne_zero (Nat.ne_zero_of_lt hi)
    have hinner : (dom.children (some i)).flatMap (dom.eventsOf k) =
        (dom.children (some i)).flatMap (dom.eventsOf dom.size) :=
      List.flatMap_congr fun c hc => by
        have hheight := h.height_lt (h.mem_children_iff.mp hc)
        have hlt := h.height_lt_size hi
        exact h.eventsOf_congr (by omega) (by omega)
    rw [← hinner, hk, eventsOf]
    rfl
  · rw [eventsOf_of_size_le (Nat.le_of_not_lt hi), content?_of_size_le (Nat.le_of_not_lt hi)]
    rfl

/-- Visiting some nodes, each in as many steps as it takes. -/
theorem sends_flatMap {nodes : List NodeId}
    (h : ∀ c ∈ nodes, ∃ steps ≤ 2 * (dom.preorder c).length,
      dom.Sends [.visit c] steps (dom.eventsOf dom.size c)) :
    ∃ steps ≤ 2 * (nodes.flatMap dom.preorder).length,
      dom.Sends (nodes.map .visit) steps (nodes.flatMap (dom.eventsOf dom.size)) := by
  induction nodes with
  | nil => exact ⟨0, le_rfl, .done⟩
  | cons c nodes ih =>
    obtain ⟨steps, hsteps, hsends⟩ := h c List.mem_cons_self
    obtain ⟨more, hmore, hrest⟩ := ih fun d hd => h d (List.mem_cons_of_mem c hd)
    refine ⟨steps + more, ?_, hsends.append hrest⟩
    rw [List.flatMap_cons, List.length_append]
    omega

/-- A visit sends the events of the recursion, in at most two steps for each node of the subtree. -/
theorem sends_visit (h : dom.WellFormed) (hi : i < dom.size) :
    ∃ steps ≤ 2 * (dom.preorder i).length, dom.Sends [.visit i] steps (dom.eventsOf dom.size i) := by
  induction i using h.subtree_induction with
  | step i ih =>
    have hkids : ∀ c ∈ dom.children (some i), ∃ steps ≤ 2 * (dom.preorder c).length,
        dom.Sends [.visit c] steps (dom.eventsOf dom.size c) := fun c hc => by
      have hci := h.mem_children_iff.mp hc
      exact ih c hci (lt_size_of_parent? hci)
    obtain ⟨steps, hsteps, hinner⟩ := sends_flatMap hkids
    obtain ⟨more, hmore, hsends⟩ := hinner.visit
    refine ⟨more, ?_, h.eventsOf_eq i ▸ hsends⟩
    rw [h.preorder_eq hi, List.length_cons]
    omega

theorem sends_children (h : dom.WellFormed) (i : NodeId) :
    ∃ steps ≤ 2 * dom.size, dom.Sends ((dom.children (some i)).map .visit) steps
      ((dom.children (some i)).flatMap (dom.eventsOf dom.size)) := by
  have hkids : ∀ c ∈ dom.children (some i), ∃ steps ≤ 2 * (dom.preorder c).length,
      dom.Sends [.visit c] steps (dom.eventsOf dom.size c) := fun c hc =>
    h.sends_visit (lt_size_of_parent? (h.mem_children_iff.mp hc))
  obtain ⟨steps, hsteps, hsends⟩ := sends_flatMap hkids
  have hbelow := h.length_below_le i
  exact ⟨steps, by omega, hsends⟩

end WellFormed

/-! ### The events of a node -/

theorem two_mul_size_lt_workBound (dom : Dom) : 2 * dom.size + 2 < dom.workBound := by
  have hpow : dom.size + 1 < 2 ^ (dom.size + 1) := Nat.lt_two_pow_self
  have hbound : dom.workBound = 2 * 2 ^ (dom.size + 1) := Nat.pow_succ'
  omega

namespace WellFormed

theorem sends_innerEvents (h : dom.WellFormed) (i : NodeId) :
    dom.innerEvents (some i) = (dom.children (some i)).flatMap (dom.eventsOf dom.size) ∧
      ∃ steps ≤ 2 * dom.size,
        dom.Sends ((dom.children (some i)).map .visit) steps (dom.innerEvents (some i)) := by
  obtain ⟨steps, hsteps, hsends⟩ := h.sends_children i
  have hbound := dom.two_mul_size_lt_workBound
  have hinner : dom.innerEvents (some i) = _ := hsends.eventsFrom_eq (by omega)
  exact ⟨hinner, steps, hsteps, hinner ▸ hsends⟩

theorem sends_events (h : dom.WellFormed) (i : NodeId) :
    dom.events (some i) = dom.eventsOf dom.size i ∧
      ∃ steps ≤ 2 * dom.size + 2, dom.Sends [.visit i] steps (dom.events (some i)) := by
  obtain ⟨steps, hsteps, hinner⟩ := h.sends_children i
  obtain ⟨more, hmore, hsends⟩ := hinner.visit
  rw [← h.eventsOf_eq i] at hsends
  have hbound := dom.two_mul_size_lt_workBound
  have hevents : dom.events (some i) = _ := hsends.eventsFrom_eq (by omega)
  exact ⟨hevents, more, by omega, hevents ▸ hsends⟩

end WellFormed

/-- What is sent for a node, with or without the node itself: the work comes to an end, what it sends are
the events of the recursion over the children, and every element is closed in its place. -/
theorem events_in_document_order (h : dom.WellFormed) (i : NodeId) :
    (∃ steps ≤ 2 * dom.size + 2, dom.Sends [.visit i] steps (dom.events (some i))) ∧
      (∃ steps ≤ 2 * dom.size,
        dom.Sends ((dom.children (some i)).map .visit) steps (dom.innerEvents (some i))) ∧
      dom.events (some i) = dom.eventsOf dom.size i ∧
      dom.events (some i) = eventsAround (dom.content? (some i)) (dom.innerEvents (some i)) ∧
      dom.innerEvents (some i) = (dom.children (some i)).flatMap (fun c => dom.events (some c)) ∧
      Nested (dom.events (some i)) ∧ Nested (dom.innerEvents (some i)) := by
  obtain ⟨hevents, hsends⟩ := h.sends_events i
  obtain ⟨hinner, hsendsInner⟩ := h.sends_innerEvents i
  refine ⟨hsends, hsendsInner, hevents, ?_, ?_, ?_, ?_⟩
  · rw [hevents, hinner, h.eventsOf_eq i]
  · rw [hinner]
    exact List.flatMap_congr fun c _ => (h.sends_events c).1.symm
  · rw [hevents]
    exact nested_eventsOf dom dom.size i
  · rw [hinner]
    exact Nested.flatMap fun c _ => nested_eventsOf dom dom.size c

/-- A paragraph with a text and a line in bold print, and a remark after it. -/
theorem events_of_document :
    let made (dom : Dom) (content : Content) (p : NodeId) :=
      (dom.create content).1.append (some p) (some dom.size)
    let paragraph : Content := .element (.html "p") [.plain "id" "a", .plain "class" "b"]
    let dom := made (made (made (made (made empty paragraph 0) (.text "x") 1)
      (.element (.html "b") []) 1) (.text "y") 3) (.comment "z") 0
    let inner : List Event := [.text "x", .opened (.html "b") [], .text "y", .closed (.html "b")]
    dom.innerEvents (some 1) = inner ∧
      dom.events (some 0) =
        .opened (.html "p") [.plain "id" "a", .plain "class" "b"] :: inner ++
          [.closed (.html "p"), .comment "z"] ∧
      Nested (dom.events (some 0)) := by
  intro made paragraph dom inner
  have hwf : dom.WellFormed :=
    ((((wellFormed_empty.append_create _ (p := 0) (by decide)).append_create _ (p := 1)
      (by decide)).append_create _ (p := 1) (by decide)).append_create _ (p := 3)
      (by decide)).append_create _ (p := 0) (by decide)
  obtain ⟨-, -, hevents, -, -, hnested, -⟩ := events_in_document_order hwf 0
  exact ⟨by decide, hevents.trans (by decide), hnested⟩

end Dom
end Markup
end CrossRef
