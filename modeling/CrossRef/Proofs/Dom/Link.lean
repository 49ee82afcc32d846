import CrossRef.Markup.Dom.Placement
import Mathlib.Tactic.ByContra
import Mathlib.Tactic.SplitIfs

/-!
Links after an edit. Each edit that moves a node is one update of every node at once, so each of
the five links of a node has a closed form after it.
-/
namespace CrossRef
namespace Markup
namespace Dom

def previous? (dom : Dom) (l : Link) : Link := (dom.node? l).bind (·.previous)

def next? (dom : Dom) (l : Link) : Link := (dom.node? l).bind (·.next)

theorem node?_eq_none_iff (dom : Dom) (i : NodeId) : dom.node? (some i) = none ↔ dom.size ≤ i := by
  simp [node?, size]

theorem exists_node {dom : Dom} {i : NodeId} (h : i < dom.size) :
    ∃ node, dom.node? (some i) = some node :=
  Option.isSome_iff_exists.mp ((node?_isSome_iff dom i).mpr h)

theorem lt_size_of_parent? {dom : Dom} {i p : NodeId} (h : dom.parent? (some i) = some p) :
    i < dom.size := by
  by_contra hi
  have hn := (node?_eq_none_iff dom i).mpr (Nat.le_of_not_lt hi)
  simp [parent?, hn] at h

@[simp] theorem lastChild?_none (dom : Dom) : dom.lastChild? none = none := rfl

@[simp] theorem content?_none (dom : Dom) : dom.content? none = none := rfl

theorem content?_isSome_iff (dom : Dom) (i : NodeId) :
    (dom.content? (some i)).isSome ↔ i < dom.size := by
  simp [content?, node?_isSome_iff]

theorem content?_of_size_le {dom : Dom} {i : NodeId} (h : dom.size ≤ i) :
    dom.content? (some i) = none := by
  simp [content?, (node?_eq_none_iff dom i).mpr h]

section Content

variable {dom dom' : Dom} {l l' : Link}

/-! What an element is called and which attributes it has depends on its content alone. -/

theorem name?_congr (h : dom'.content? l' = dom.content? l) : dom'.name? l' = dom.name? l := by
  simp [name?, h]

theorem isElement_congr (h : dom'.content? l' = dom.content? l) (label : String) :
    dom'.isElement l' label = dom.isElement l label := by
  simp [isElement, name?_congr h]

theorem isElement_inj {label other : String} (h : dom.isElement l label)
    (h' : dom.isElement l other) : label = other := by
  unfold isElement at h h'
  split at h
  · simp_all
  · simp at h

theorem name?_isSome_of_isElement {label : String} (h : dom.isElement l label) :
    (dom.name? l).isSome := by
  unfold isElement at h
  split at h
  · next name hname => simp [hname]
  · simp at h

theorem lt_size_of_name? {i : NodeId} (h : (dom.name? (some i)).isSome) : i < dom.size := by
  rw [← content?_isSome_iff]
  cases hc : dom.content? (some i) with
  | some content => rfl
  | none => simp [name?, hc] at h

theorem attribute?_congr (h : dom'.content? l' = dom.content? l) (label : String) :
    dom'.attribute? l' label = dom.attribute? l label := by
  simp [attribute?, attributes, h]

end Content

section Fresh

variable (dom : Dom) (content : Content)

/-- A new node has no links, and the links of the others stay. -/
theorem bind_node?_create (field : Node → Link) (h : field (.alone content) = none) (i : NodeId) :
    ((dom.create content).1.node? (some i)).bind field = (dom.node? (some i)).bind field := by
  rw [node?_create]
  split_ifs with hi
  · have hn := (node?_eq_none_iff dom i).mpr (Nat.le_of_eq hi.symm)
    simp [h, hn]
  · rfl

@[simp] theorem create_snd : (dom.create content).2 = dom.size := rfl

@[simp] theorem parent?_create (i : NodeId) :
    (dom.create content).1.parent? (some i) = dom.parent? (some i) :=
  bind_node?_create dom content _ rfl i

@[simp] theorem firstChild?_create (i : NodeId) :
    (dom.create content).1.firstChild? (some i) = dom.firstChild? (some i) :=
  bind_node?_create dom content _ rfl i

@[simp] theorem lastChild?_create (i : NodeId) :
    (dom.create content).1.lastChild? (some i) = dom.lastChild? (some i) :=
  bind_node?_create dom content _ rfl i

@[simp] theorem previous?_create (i : NodeId) :
    (dom.create content).1.previous? (some i) = dom.previous? (some i) :=
  bind_node?_create dom content _ rfl i

@[simp] theorem next?_create (i : NodeId) :
    (dom.create content).1.next? (some i) = dom.next? (some i) :=
  bind_node?_create dom content _ rfl i

theorem content?_create (i : NodeId) :
    (dom.create content).1.content? (some i) =
      if i = dom.size then some content else dom.content? (some i) := by
  rw [content?, node?_create]
  split_ifs <;> rfl

end Fresh

section Append

variable (dom : Dom) (p c : NodeId)

/-- What appending does to each node. -/
theorem node?_append (i : NodeId) :
    (dom.append (some p) (some c)).node? (some i) = (dom.node? (some i)).map fun n =>
      { content := n.content
        parent := if i = c then some p else n.parent
        firstChild := if i = p then n.firstChild.or (some c) else n.firstChild
        lastChild := if i = p then some c else n.lastChild
        previous := if i = c then dom.lastChild? (some p) else n.previous
        next :=
          if dom.lastChild? (some p) = some i then some c else if i = c then none else n.next } := by
  simp only [append, node?_modify]
  cases dom.node? (some i) with
  | none => simp
  | some n =>
    simp only [Option.some_inj, eq_comm (a := p) (b := i), eq_comm (a := c) (b := i)]
    split_ifs <;> simp_all

@[simp] theorem size_append : (dom.append (some p) (some c)).size = dom.size := by
  simp [append]

theorem parent?_append (hc : c < dom.size) (i : NodeId) :
    (dom.append (some p) (some c)).parent? (some i) =
      if i = c then some p else dom.parent? (some i) := by
  by_cases hi : i < dom.size
  · obtain ⟨n, hn⟩ := exists_node hi
    simp [parent?, node?_append, hn]
  · have hn := (node?_eq_none_iff dom i).mpr (Nat.le_of_not_lt hi)
    have hic : i ≠ c := fun h => hi (h ▸ hc)
    simp [parent?, node?_append, hn, hic]

theorem previous?_append (i : NodeId) (hi : i < dom.size) :
    (dom.append (some p) (some c)).previous? (some i) =
      if i = c then dom.lastChild? (some p) else dom.previous? (some i) := by
  obtain ⟨n, hn⟩ := exists_node hi
  simp [previous?, node?_append, hn]

theorem next?_append (i : NodeId) (hi : i < dom.size) :
    (dom.append (some p) (some c)).next? (some i) =
      if dom.lastChild? (some p) = some i then some c
      else if i = c then none else dom.next? (some i) := by
  obtain ⟨n, hn⟩ := exists_node hi
  simp [next?, node?_append, hn]

theorem firstChild?_append (i : NodeId) (hi : i < dom.size) :
    (dom.append (some p) (some c)).firstChild? (some i) =
      if i = p then (dom.firstChild? (some p)).or (some c) else dom.firstChild? (some i) := by
  obtain ⟨n, hn⟩ := exists_node hi
  split_ifs with hp
  · subst hp
    simp [firstChild?, node?_append, hn]
  · simp [firstChild?, node?_append, hn, hp]

theorem lastChild?_append (i : NodeId) (hi : i < dom.size) :
    (dom.append (some p) (some c)).lastChild? (some i) =
      if i = p then some c else dom.lastChild? (some i) := by
  obtain ⟨n, hn⟩ := exists_node hi
  simp [lastChild?, node?_append, hn]

@[simp] theorem content?_append (l : Link) :
    (dom.append (some p) (some c)).content? l = dom.content? l := by
  cases l with
  | none => rfl
  | some i => simp [content?, node?_append, Function.comp_def]

end Append

section InsertBefore

variable {dom : Dom} {s : NodeId} (n : NodeId)

/-- What inserting before a node that exists does to each node. -/
theorem node?_insertBefore (hs : s < dom.size) (i : NodeId) :
    (dom.insertBefore (some s) (some n)).node? (some i) = (dom.node? (some i)).map fun m =>
      { content := m.content
        parent := if i = n then dom.parent? (some s) else m.parent
        firstChild :=
          if dom.previous? (some s) = none ∧ dom.parent? (some s) = some i then some n
          else m.firstChild
        lastChild := m.lastChild
        previous :=
          if i = s then some n else if i = n then dom.previous? (some s) else m.previous
        next :=
          if dom.previous? (some s) = some i then some n
          else if i = n then some s else m.next } := by
  obtain ⟨node, hn⟩ := exists_node hs
  simp only [insertBefore, hn, previous?, parent?, Option.bind_some]
  cases hp : node.previous with
  | none =>
    simp only [Option.isSome_none, Bool.false_eq_true, if_false, node?_modify, true_and,
      Option.some_inj, eq_comm (a := n) (b := i), eq_comm (a := s) (b := i), reduceCtorEq]
    cases dom.node? (some i) with
    | none => simp
    | some m => split_ifs <;> simp_all
  | some a =>
    simp only [Option.isSome_some, if_true, node?_modify, false_and, reduceCtorEq, if_false,
      Option.some_inj, eq_comm (a := n) (b := i), eq_comm (a := s) (b := i)]
    cases dom.node? (some i) with
    | none => simp
    | some m => split_ifs <;> simp_all

@[simp] theorem size_insertBefore (l : Link) :
    (dom.insertBefore l (some n)).size = dom.size := by
  unfold insertBefore
  split
  · rfl
  · split_ifs <;> simp

theorem parent?_insertBefore (hs : s < dom.size) (hn : n < dom.size) (i : NodeId) :
    (dom.insertBefore (some s) (some n)).parent? (some i) =
      if i = n then dom.parent? (some s) else dom.parent? (some i) := by
  by_cases hi : i < dom.size
  · obtain ⟨m, hm⟩ := exists_node hi
    simp [parent?, node?_insertBefore n hs, hm]
  · have hm := (node?_eq_none_iff dom i).mpr (Nat.le_of_not_lt hi)
    have hin : i ≠ n := fun h => hi (h ▸ hn)
    simp [parent?, node?_insertBefore n hs, hm, hin]

theorem previous?_insertBefore (hs : s < dom.size) (i : NodeId) (hi : i < dom.size) :
    (dom.insertBefore (some s) (some n)).previous? (some i) =
      if i = s then some n
      else if i = n then dom.previous? (some s) else dom.previous? (some i) := by
  obtain ⟨m, hm⟩ := exists_node hi
  simp [previous?, node?_insertBefore n hs, hm]

theorem next?_insertBefore (hs : s < dom.size) (i : NodeId) (hi : i < dom.size) :
    (dom.insertBefore (some s) (some n)).next? (some i) =
      if dom.previous? (some s) = some i then some n
      else if i = n then some s else dom.next? (some i) := by
  obtain ⟨m, hm⟩ := exists_node hi
  simp [next?, node?_insertBefore n hs, hm]

theorem firstChild?_insertBefore (hs : s < dom.size) (i : NodeId) (hi : i < dom.size) :
    (dom.insertBefore (some s) (some n)).firstChild? (some i) =
      if dom.previous? (some s) = none ∧ dom.parent? (some s) = some i then some n
      else dom.firstChild? (some i) := by
  obtain ⟨m, hm⟩ := exists_node hi
  simp [firstChild?, node?_insertBefore n hs, hm]

theorem lastChild?_insertBefore (hs : s < dom.size) (i : NodeId) :
    (dom.insertBefore (some s) (some n)).lastChild? (some i) = dom.lastChild? (some i) := by
  rw [lastChild?, node?_insertBefore n hs, Option.bind_map]
  rfl

theorem content?_insertBefore (hs : s < dom.size) (l : Link) :
    (dom.insertBefore (some s) (some n)).content? l = dom.content? l := by
  cases l with
  | none => rfl
  | some i => simp [content?, node?_insertBefore n hs, Function.comp_def]

end InsertBefore

section Detach

variable (dom : Dom) (c : NodeId)

/-- What detaching does to each node. -/
theorem node?_detach (i : NodeId) :
    (dom.detach (some c)).node? (some i) = (dom.node? (some i)).map fun n =>
      { content := n.content
        parent := if i = c then none else n.parent
        firstChild :=
          if dom.previous? (some c) = none ∧ dom.parent? (some c) = some i then
            dom.next? (some c)
          else n.firstChild
        lastChild :=
          if dom.next? (some c) = none ∧ dom.parent? (some c) = some i then
            dom.previous? (some c)
          else n.lastChild
        previous :=
          if i = c then none
          else if dom.next? (some c) = some i then dom.previous? (some c) else n.previous
        next :=
          if i = c then none
          else if dom.previous? (some c) = some i then dom.next? (some c) else n.next } := by
  cases hc : dom.node? (some c) with
  | none =>
    have hi : dom.node? (some i) = none ∨ i ≠ c := by
      by_cases h : i = c
      · exact .inl (h ▸ hc)
      · exact .inr h
    rcases hi with hi | hi
    · simp [detach, hc, hi]
    · cases hn : dom.node? (some i) <;> simp [detach, hc, hi, hn, previous?, next?, parent?]
  | some node =>
    simp only [detach, hc, previous?, next?, parent?, Option.bind_some]
    cases hp : node.previous <;> cases hx : node.next <;>
      simp only [Option.isSome_none, Option.isSome_some, Bool.false_eq_true, if_false, if_true,
        node?_modify, true_and, false_and, Option.some_inj, reduceCtorEq,
        eq_comm (a := c) (b := i)] <;>
      cases hn : dom.node? (some i) <;> simp <;> split_ifs <;> simp_all

@[simp] theorem size_detach (l : Link) : (dom.detach l).size = dom.size := by
  unfold detach
  split
  · rfl
  · simp only [size_modify]
    split_ifs <;> simp

theorem parent?_detach (i : NodeId) :
    (dom.detach (some c)).parent? (some i) =
      if i = c then none else dom.parent? (some i) := by
  cases hn : dom.node? (some i) <;> simp [parent?, node?_detach, hn]

theorem previous?_detach (i : NodeId) (hi : i < dom.size) :
    (dom.detach (some c)).previous? (some i) =
      if i = c then none
      else if dom.next? (some c) = some i then dom.previous? (some c)
      else dom.previous? (some i) := by
  obtain ⟨n, hn⟩ := exists_node hi
  simp [previous?, node?_detach, hn]

theorem next?_detach (i : NodeId) (hi : i < dom.size) :
    (dom.detach (some c)).next? (some i) =
      if i = c then none
      else if dom.previous? (some c) = some i then dom.next? (some c)
      else dom.next? (some i) := by
  obtain ⟨n, hn⟩ := exists_node hi
  simp [next?, node?_detach, hn]

theorem firstChild?_detach (i : NodeId) (hi : i < dom.size) :
    (dom.detach (some c)).firstChild? (some i) =
      if dom.previous? (some c) = none ∧ dom.parent? (some c) = some i then dom.next? (some c)
      else dom.firstChild? (some i) := by
  obtain ⟨n, hn⟩ := exists_node hi
  simp [firstChild?, node?_detach, hn]

theorem lastChild?_detach (i : NodeId) (hi : i < dom.size) :
    (dom.detach (some c)).lastChild? (some i) =
      if dom.next? (some c) = none ∧ dom.parent? (some c) = some i then dom.previous? (some c)
      else dom.lastChild? (some i) := by
  obtain ⟨n, hn⟩ := exists_node hi
  simp [lastChild?, node?_detach, hn]

@[simp] theorem content?_detach (l : Link) :
    (dom.detach (some c)).content? l = dom.content? l := by
  cases l with
  | none => rfl
  | some i => simp [content?, node?_detach, Function.comp_def]

end Detach

end Dom
end Markup
end CrossRef
