import ClassNest.Forest.Basic
import ClassNest.Proofs.Distinct

/-!
# Views of the arena

A forest is looked at through a few views: the label of a node (what it is, links left out) and the
class it stands for, its parent, its children, the list of roots, and the look-up by name. Each
operation has one lemma per view, and nothing after this file opens an operation again.

`Linked` says that parents and children are two sides of the same links and that these lead upwards
in the arena. `Rooted` says that the roots are the nodes without a parent, and `Named` that every
class can be found by its name. `Keeps f f'` says that `f'` grew out of `f` and left what was there
alone; going back to the mark of `f` then gives `f` again (`rollback_of_keeps`).
-/
namespace ClassNest

/-- Changing one entry of a list and then mapping it, or the other way round. -/
theorem map_modify {α β : Type} {f : α → β} {a : α → α} {b : β → β} (h : ∀ x, f (a x) = b (f x))
    (xs : List α) (i : Nat) : (xs.modify i a).map f = (xs.map f).modify i b := by
  apply List.ext_getElem?
  intro j
  rw [List.getElem?_map, List.getElem?_modify, List.getElem?_modify, List.getElem?_map]
  by_cases hij : i = j
  · cases xs[j]? <;> simp [hij, h]
  · simp [hij]

namespace Node

/-- The node without its links. -/
def label (n : Node) : Node := { n with parent := none, children := [] }

/-- The class that a node stands for; a lambda stands for none. -/
def className? (n : Node) : Option String := if n.isLambda then none else some n.qualifiedName

theorem className?_eq_some {n : Node} {a : String} :
    n.className? = some a ↔ n.isLambda = false ∧ n.qualifiedName = a := by
  unfold className?
  cases n.isLambda <;> simp

end Node

namespace Forest

/-- What the node at `i` is, links left out. -/
def label? (f : Forest) (i : NodeId) : Option Node := (f.node? i).map (·.label)

/-- The class that the node at `i` stands for. -/
def className? (f : Forest) (i : NodeId) : Option String := (f.label? i).bind (·.className?)

/-- The classes right below `i`, in the order of the nodes. -/
def nestedNames (f : Forest) (i : NodeId) : List String := (f.children i).filterMap f.className?

/-! ## Growing, view by view -/

section
variable {f : Forest} {n : Node} {p i : Nat}

theorem node?_eq_none (h : f.size ≤ i) : f.node? i = none := List.getElem?_eq_none h

theorem node?_push : (f.push n).node? i = if i = f.size then some n else f.node? i := by
  by_cases h : i = f.size
  · rw [if_pos h, h]
    exact List.getElem?_concat_length
  · rw [if_neg h]
    rcases Nat.lt_or_gt_of_ne h with hlt | hgt
    · exact List.getElem?_append_left hlt
    · rw [node?_eq_none (Nat.le_of_lt hgt)]
      exact List.getElem?_eq_none (by simp only [push, List.length_append, List.length_singleton]; exact hgt)

theorem node?_graft : (f.graft p n).node? i =
    (if i = f.size then some { n with parent := some p } else f.node? i).map fun m =>
      if p = i then { m with children := m.children ++ [f.size] } else m := by
  rw [← node?_push]
  simp only [node?, graft, link, List.getElem?_modify]
  rfl

@[simp] theorem size_addRoot : (f.addRoot n).size = f.size + 1 := by simp [addRoot, push, size]

@[simp] theorem size_graft : (f.graft p n).size = f.size + 1 := by simp [graft, link, push, size]

@[simp] theorem roots_addRoot : (f.addRoot n).roots = f.roots ++ [f.size] := rfl

@[simp] theorem roots_graft : (f.graft p n).roots = f.roots := rfl

theorem label?_addRoot : (f.addRoot n).label? i = if i = f.size then some n.label else f.label? i := by
  show ((f.push n).node? i).map _ = _
  rw [node?_push]
  split <;> rfl

theorem label?_graft : (f.graft p n).label? i = if i = f.size then some n.label else f.label? i := by
  unfold label?
  rw [node?_graft, Option.map_map]
  have hl : ∀ m : Node, (if p = i then { m with children := m.children ++ [f.size] } else m).label = m.label := by
    intro m; split <;> rfl
  simp only [Function.comp_def, hl]
  split <;> rfl

theorem parent?_addRoot (hn : n.parent = none) : (f.addRoot n).parent? i = f.parent? i := by
  show ((f.push n).node? i).bind _ = _
  rw [node?_push, parent?]
  split
  · rename_i h; rw [node?_eq_none (Nat.le_of_eq h.symm)]; exact hn
  · rfl

theorem parent?_graft : (f.graft p n).parent? i = if i = f.size then some p else f.parent? i := by
  have hp : ∀ m : Node, (if p = i then { m with children := m.children ++ [f.size] } else m).parent = m.parent := by
    intro m; split <;> rfl
  unfold parent?
  rw [node?_graft, Option.bind_map]
  simp only [Function.comp_def, hp]
  by_cases h : i = f.size
  · rw [if_pos h, if_pos h]; rfl
  · rw [if_neg h, if_neg h]

theorem children_eq_nil (h : f.size ≤ i) : f.children i = [] := by
  unfold children; rw [node?_eq_none h]

theorem children_addRoot (hn : n.children = []) : (f.addRoot n).children i = f.children i := by
  have hnode : (f.addRoot n).node? i = (f.push n).node? i := rfl
  unfold children
  rw [hnode, node?_push]
  by_cases h : i = f.size
  · rw [if_pos h, node?_eq_none (Nat.le_of_eq h.symm)]; exact hn
  · rw [if_neg h]

theorem children_graft (hn : n.children = []) (hp : p < f.size) :
    (f.graft p n).children i = if i = p then f.children i ++ [f.size] else f.children i := by
  unfold children
  rw [node?_graft]
  by_cases hi : i = f.size
  · have hpi : p ≠ i := by omega
    rw [if_pos hi, Option.map_some, if_neg (Ne.symm hpi), if_neg hpi,
      node?_eq_none (Nat.le_of_eq hi.symm)]
    exact hn
  · rw [if_neg hi]
    by_cases hpi : p = i
    · subst hpi
      have hm : (f.node? p).isSome := by simpa [node?, size] using hp
      obtain ⟨m, hm⟩ := Option.isSome_iff_exists.mp hm
      simp [hm]
    · simp only [if_neg hpi, if_neg (Ne.symm hpi)]
      cases f.node? i <;> rfl

theorem find?_push (name : String) : (f.push n).find? name =
    if n.className? = some name then some f.size else f.find? name := by
  unfold find? push Node.className?
  by_cases hl : n.isLambda = true
  · simp [hl]
  · simp only [hl, Bool.false_eq_true, ite_false, Option.some.injEq, List.lookup_cons]
    by_cases h : n.qualifiedName = name
    · simp [h]
    · rw [if_neg h, lookup_filter_ne (Ne.symm h), beq_false_of_ne (Ne.symm h)]

theorem find?_addRoot (name : String) : (f.addRoot n).find? name =
    if n.className? = some name then some f.size else f.find? name := find?_push name

theorem find?_graft (name : String) : (f.graft p n).find? name =
    if n.className? = some name then some f.size else f.find? name := find?_push name

theorem className?_addRoot : (f.addRoot n).className? i = if i = f.size then n.className? else f.className? i := by
  unfold className?
  rw [label?_addRoot]
  split <;> rfl

theorem className?_graft : (f.graft p n).className? i = if i = f.size then n.className? else f.className? i := by
  unfold className?
  rw [label?_graft]
  split <;> rfl

end

section
variable {f : Forest} {n : Node} {p i : Nat} {a : String}

theorem lt_size_of_label? {l : Node} (h : f.label? i = some l) : i < f.size := by
  apply Nat.lt_of_not_le
  intro hle
  rw [label?, node?_eq_none hle] at h
  cases h

theorem lt_size_of_parent? (h : f.parent? i = some p) : i < f.size := by
  apply Nat.lt_of_not_le
  intro hle
  rw [parent?, node?_eq_none hle] at h
  cases h

theorem className?_eq_some : f.className? i = some a ↔
    ∃ l, f.label? i = some l ∧ l.isLambda = false ∧ l.qualifiedName = a := by
  unfold className?
  simp only [Option.bind_eq_some_iff, Node.className?_eq_some]

/-- The same, for the node with its links. -/
theorem className?_iff_node? : f.className? i = some a ↔
    ∃ m, f.node? i = some m ∧ m.kind ≠ .lambda ∧ m.qualifiedName = a := by
  rw [className?_eq_some]
  constructor
  · rintro ⟨l, hl, hk, hq⟩
    obtain ⟨m, hm, rfl⟩ := Option.map_eq_some_iff.mp hl
    exact ⟨m, hm, beq_eq_false_iff_ne.mp hk, hq⟩
  · rintro ⟨m, hm, hk, hq⟩
    exact ⟨m.label, by rw [label?, hm]; rfl, beq_eq_false_iff_ne.mpr hk, hq⟩

theorem lt_size_of_className? (h : f.className? i = some a) : i < f.size := by
  obtain ⟨l, hl, _⟩ := className?_eq_some.mp h
  exact lt_size_of_label? hl

end

section
variable {f : Forest} {n : Node} {p i : Nat} {a : String}

/-! Growing takes no name away from a node, and only a node that stands for a class brings one. -/

theorem className?_addRoot_some (h : f.className? i = some a) : (f.addRoot n).className? i = some a := by
  rw [className?_addRoot, if_neg (Nat.ne_of_lt (lt_size_of_className? h))]
  exact h

theorem className?_graft_some (h : f.className? i = some a) : (f.graft p n).className? i = some a := by
  rw [className?_graft, if_neg (Nat.ne_of_lt (lt_size_of_className? h))]
  exact h

theorem className?_graft_none (hn : n.className? = none) :
    (f.graft p n).className? i = f.className? i := by
  rw [className?_graft]
  split
  · rename_i hi
    rw [hn, className?, label?, node?_eq_none (Nat.le_of_eq hi.symm)]
    rfl
  · rfl

end

/-! Everything that is there after a graft: the old nodes as they were, and the new one below `p`. -/

section
variable {f : Forest} {n : Node} {p i : Nat}

theorem className?_graft_cases {a : String} (h : (f.graft p n).className? i = some a) :
    i < f.size ∧ f.className? i = some a ∨ i = f.size ∧ n.className? = some a := by
  rw [className?_graft] at h
  by_cases hi : i = f.size
  · rw [if_pos hi] at h; exact .inr ⟨hi, h⟩
  · rw [if_neg hi] at h; exact .inl ⟨lt_size_of_className? h, h⟩

theorem parent?_graft_cases {q : Nat} (h : (f.graft p n).parent? i = some q) :
    i < f.size ∧ f.parent? i = some q ∨ i = f.size ∧ q = p := by
  rw [parent?_graft] at h
  by_cases hi : i = f.size
  · rw [if_pos hi] at h; cases h; exact .inr ⟨hi, rfl⟩
  · rw [if_neg hi] at h; exact .inl ⟨lt_size_of_parent? h, h⟩

end

/-- A node that stands for no class is a lambda. -/
theorem isLambda_of_className?_eq_none {f : Forest} {i : Nat} (hi : i < f.size)
    (h : f.className? i = none) :
    ∃ l, f.label? i = some l ∧ l.isLambda = true := by
  have hl : f.label? i = some (f.nodes.get ⟨i, hi⟩).label := by
    unfold label? node?
    rw [List.getElem?_eq_getElem hi]
    rfl
  refine ⟨_, hl, ?_⟩
  rw [className?, hl, Option.bind_some, Node.className?] at h
  by_contra hne
  rw [if_neg hne] at h
  cases h

/-! ## Links -/

/-- Parents and children are two sides of the same links, which lead from smaller to larger ids. -/
structure Linked (f : Forest) : Prop where
  mem_children : ∀ {i p : Nat}, i ∈ f.children p ↔ f.parent? i = some p
  parent_lt : ∀ {i p : Nat}, f.parent? i = some p → p < i
  sorted : ∀ p : Nat, (f.children p).Pairwise (· < ·)

/-- The roots are the nodes without a parent, in the order of the arena. -/
structure Rooted (f : Forest) : Prop where
  mem_roots : ∀ {i : Nat}, i ∈ f.roots ↔ i < f.size ∧ f.parent? i = none
  sorted : f.roots.Pairwise (· < ·)

/-- A class is found by its name, and so has one node. -/
structure Named (f : Forest) : Prop where
  find?_iff : ∀ {name : String} {i : Nat}, f.find? name = some i ↔ f.className? i = some name
  bounded : ∀ e ∈ f.byName, e.2 < f.size

theorem linked_empty : Linked {} :=
  ⟨⟨fun h => (by cases h), fun h => (by cases h)⟩, fun h => (by cases h), fun _ => List.Pairwise.nil⟩

theorem rooted_empty : Rooted {} :=
  ⟨⟨fun h => (by cases h), fun h => absurd h.1 (Nat.not_lt_zero _)⟩, List.Pairwise.nil⟩

theorem named_empty : Named {} :=
  ⟨⟨fun h => (by cases h), fun h => (by cases h)⟩, fun _ h => (by cases h)⟩

section
variable {f : Forest} {n : Node} {p : Nat}

theorem Linked.addRoot (h : f.Linked) (hp : n.parent = none) (hc : n.children = []) :
    (f.addRoot n).Linked := by
  refine ⟨?_, ?_, ?_⟩
  · intro i q; rw [children_addRoot hc, parent?_addRoot hp]; exact h.mem_children
  · intro i q; rw [parent?_addRoot hp]; exact h.parent_lt
  · intro q; rw [children_addRoot hc]; exact h.sorted q

theorem Linked.child_lt_size (h : f.Linked) {i : Nat} (hi : i ∈ f.children p) : i < f.size :=
  lt_size_of_parent? (h.mem_children.mp hi)

theorem Linked.graft (h : f.Linked) (hc : n.children = []) (hp : p < f.size) : (f.graft p n).Linked := by
  refine ⟨?_, ?_, ?_⟩
  · intro i q
    rw [children_graft hc hp, parent?_graft]
    by_cases hi : i = f.size
    · subst hi
      have hold : f.size ∉ f.children q := fun hm => by have := h.child_lt_size hm; omega
      by_cases hq : q = p
      · simp [hq]
      · simp [hq, hold, Ne.symm hq]
    · by_cases hq : q = p
      · simp [hq, hi, h.mem_children]
      · simp [hq, hi, h.mem_children]
  · intro i q hq
    rcases parent?_graft_cases hq with ⟨_, hq⟩ | ⟨rfl, rfl⟩
    · exact h.parent_lt hq
    · exact hp
  · intro q
    rw [children_graft hc hp]
    split
    · rw [List.pairwise_append]
      refine ⟨h.sorted q, List.pairwise_singleton _ _, ?_⟩
      intro a ha b hb
      rw [List.mem_singleton.mp hb]
      exact h.child_lt_size ha
    · exact h.sorted q

theorem Rooted.addRoot (h : f.Rooted) (hp : n.parent = none) : (f.addRoot n).Rooted := by
  refine ⟨?_, ?_⟩
  · intro i
    rw [roots_addRoot, size_addRoot, parent?_addRoot hp, List.mem_append, h.mem_roots, List.mem_singleton]
    constructor
    · rintro (hi | rfl)
      · exact ⟨by omega, hi.2⟩
      · exact ⟨by omega, by rw [parent?, node?_eq_none (Nat.le_refl _)]; rfl⟩
    · rintro ⟨hi, hn⟩
      by_cases he : i = f.size
      · exact .inr he
      · exact .inl ⟨by omega, hn⟩
  · rw [roots_addRoot, List.pairwise_append]
    refine ⟨h.sorted, List.pairwise_singleton _ _, ?_⟩
    intro a ha b hb
    rw [List.mem_singleton.mp hb]
    exact (h.mem_roots.mp ha).1

theorem Rooted.graft (h : f.Rooted) : (f.graft p n).Rooted := by
  refine ⟨?_, h.sorted⟩
  intro i
  rw [roots_graft, size_graft, parent?_graft, h.mem_roots]
  by_cases hi : i = f.size
  · simp [hi]
  · rw [if_neg hi]
    exact ⟨fun ⟨a, b⟩ => ⟨by omega, b⟩, fun ⟨a, b⟩ => ⟨by omega, b⟩⟩

theorem bounded_push (h : ∀ e ∈ f.byName, e.2 < f.size) : ∀ e ∈ (f.push n).byName, e.2 < f.size + 1 := by
  intro e he
  unfold push at he
  by_cases hl : n.isLambda = true
  · simp only [hl, ite_true] at he
    exact Nat.lt_succ_of_lt (h e he)
  · simp only [hl, Bool.false_eq_true, ite_false, List.mem_cons, List.mem_filter] at he
    rcases he with rfl | he
    · exact Nat.lt_succ_self _
    · exact Nat.lt_succ_of_lt (h e he.1)

theorem Named.eq_of_className? (h : f.Named) {i j : Nat} {a : String} (hi : f.className? i = some a)
    (hj : f.className? j = some a) : i = j := by
  have h1 := h.find?_iff.mpr hi
  rw [h.find?_iff.mpr hj] at h1
  cases h1; rfl

theorem Named.find?_eq_none (h : f.Named) {a : String} (hn : ∀ i : Nat, f.className? i ≠ some a) :
    f.find? a = none := by
  cases hf : f.find? a with
  | none => rfl
  | some i => exact absurd (h.find?_iff.mp hf) (hn i)

/-- A look-up leads to the new node if it stands for that class, and else where it led before. -/
theorem Named.find?_iff_of_fresh (h : f.Named) (hn : ∀ a, n.className? = some a → f.find? a = none)
    {name : String} {i : Nat} :
    (if n.className? = some name then some f.size else f.find? name) = some i ↔
      (if i = f.size then n.className? else f.className? i) = some name := by
  by_cases hc : n.className? = some name
  · rw [if_pos hc]
    by_cases hi : i = f.size
    · simp [hi, hc]
    · rw [if_neg hi, ← h.find?_iff, hn name hc]
      simp [Ne.symm hi]
  · rw [if_neg hc, h.find?_iff]
    by_cases hi : i = f.size
    · rw [if_pos hi]
      constructor
      · intro hold; have := lt_size_of_className? hold; omega
      · intro hnew; exact absurd hnew hc
    · rw [if_neg hi]

theorem Named.addRoot (h : f.Named) (hn : ∀ a, n.className? = some a → f.find? a = none) :
    (f.addRoot n).Named := by
  refine ⟨?_, by rw [size_addRoot]; exact bounded_push h.bounded⟩
  intro name i
  rw [find?_addRoot, className?_addRoot, h.find?_iff_of_fresh hn]

theorem Named.graft (h : f.Named) (hn : ∀ a, n.className? = some a → f.find? a = none) :
    (f.graft p n).Named := by
  refine ⟨?_, by rw [size_graft]; exact bounded_push h.bounded⟩
  intro name i
  rw [find?_graft, className?_graft, h.find?_iff_of_fresh hn]

/-- The classes below a node after a graft: a class comes last below its parent, a lambda leaves
them as they are. -/
theorem Linked.nestedNames_graft (h : f.Linked) (hc : n.children = []) (hp : p < f.size) {i : Nat} :
    (f.graft p n).nestedNames i =
      if i = p then f.nestedNames i ++ n.className?.toList else f.nestedNames i := by
  have hold : (f.children i).filterMap (f.graft p n).className? = f.nestedNames i := by
    apply List.filterMap_congr
    intro j hj
    rw [className?_graft, if_neg (Nat.ne_of_lt (h.child_lt_size hj))]
  unfold nestedNames at *
  rw [children_graft hc hp]
  split
  · rw [List.filterMap_append, hold]
    congr 1
    cases hn : n.className? <;> simp [className?_graft, hn]
  · exact hold

end

/-! ## Going back -/

/-- `f'` grew out of `f` and left what was there alone. -/
structure Keeps (f f' : Forest) : Prop where
  nodes : f'.nodes.take f.size = f.nodes
  roots : f'.roots.take f.roots.length = f.roots
  byName : f'.byName.filter (·.2 < f.size) = f.byName
  unattached : f'.unattached = f.unattached

section
variable {f f' : Forest} {n : Node} {p : Nat}

theorem Named.keeps_self (h : f.Named) : f.Keeps f :=
  ⟨List.take_length, List.take_length,
    List.filter_eq_self.mpr fun e he => by simpa using h.bounded e he, rfl⟩

theorem Keeps.size_le (h : f.Keeps f') : f.size ≤ f'.size := by
  have hl := congrArg List.length h.nodes
  rw [List.length_take] at hl
  unfold size at *
  omega

theorem Keeps.roots_length_le (h : f.Keeps f') : f.roots.length ≤ f'.roots.length := by
  have hl := congrArg List.length h.roots
  rw [List.length_take] at hl
  omega

theorem Keeps.node? (h : f.Keeps f') {i : Nat} (hi : i < f.size) : f'.node? i = f.node? i := by
  unfold Forest.node?
  rw [← h.nodes, List.getElem?_take_of_lt hi]

theorem Keeps.label? (h : f.Keeps f') {i : Nat} (hi : i < f.size) : f'.label? i = f.label? i := by
  unfold Forest.label?; rw [h.node? hi]

theorem Keeps.className? (h : f.Keeps f') {i : Nat} (hi : i < f.size) :
    f'.className? i = f.className? i := by
  unfold Forest.className?; rw [h.label? hi]

theorem Keeps.parent? (h : f.Keeps f') {i : Nat} (hi : i < f.size) : f'.parent? i = f.parent? i := by
  unfold Forest.parent?; rw [h.node? hi]

theorem Keeps.children (h : f.Keeps f') {i : Nat} (hi : i < f.size) : f'.children i = f.children i := by
  unfold Forest.children; rw [h.node? hi]

theorem find?_eq_none_iff {name : String} : f.find? name = none ↔ ∀ e ∈ f.byName, e.1 ≠ name := by
  unfold find?
  rw [List.lookup_eq_none_iff]
  constructor
  · intro h e he heq; simpa [heq] using h e he
  · intro h e he; simpa using Ne.symm (h e he)

/-- Pushing a lambda, or a class that is not there yet, leaves the old names alone. -/
theorem byName_push (hle : f.size ≤ f'.size) (hn : ∀ a, n.className? = some a → f'.find? a = none) :
    (f'.push n).byName.filter (·.2 < f.size) = f'.byName.filter (·.2 < f.size) := by
  unfold push
  by_cases hl : n.isLambda = true
  · simp only [hl, ite_true]
  · have hfresh := find?_eq_none_iff.mp (hn n.qualifiedName (by simp [Node.className?, hl]))
    have hself : f'.byName.filter (·.1 != n.qualifiedName) = f'.byName :=
      List.filter_eq_self.mpr fun e he => by simpa using hfresh e he
    simp only [hl, Bool.false_eq_true, ite_false, hself]
    rw [List.filter_cons_of_neg (by simpa using hle)]

theorem Keeps.addRoot (h : f.Keeps f') (hn : ∀ a, n.className? = some a → f'.find? a = none) :
    f.Keeps (f'.addRoot n) where
  nodes := by
    show (f'.nodes ++ [n]).take f.size = f.nodes
    rw [List.take_append_of_le_length h.size_le, h.nodes]
  roots := by rw [roots_addRoot, List.take_append_of_le_length h.roots_length_le, h.roots]
  byName := (byName_push h.size_le hn).trans h.byName
  unattached := h.unattached

theorem Keeps.graft (h : f.Keeps f') (hp : f.size ≤ p)
    (hn : ∀ a, n.className? = some a → f'.find? a = none) : f.Keeps (f'.graft p n) where
  nodes := by
    rw [← h.nodes]
    apply List.ext_getElem?
    intro i
    rw [List.getElem?_take, List.getElem?_take]
    split
    · have hi : i < f'.size := Nat.lt_of_lt_of_le ‹_› h.size_le
      show (f'.graft p n).node? i = f'.node? i
      rw [node?_graft, if_neg (by omega)]
      simp only [show p ≠ i by omega, ite_false, Option.map_id']
    · rfl
  roots := h.roots
  byName := (byName_push h.size_le hn).trans h.byName
  unattached := h.unattached

/-- Children are links to nodes of the arena, and a cut behind its end drops none. -/
theorem Linked.map_filter_children (h : f.Linked) {limit : Nat} (hle : f.size ≤ limit) :
    f.nodes.map (fun n => { n with children := n.children.filter (· < limit) }) = f.nodes := by
  refine (List.map_congr_left fun n hn => ?_).trans (List.map_id' _)
  obtain ⟨i, hi⟩ := List.getElem?_of_mem hn
  have hc : f.children i = n.children := by unfold children node?; rw [hi]
  have hself : n.children.filter (· < limit) = n.children := by
    refine List.filter_eq_self.mpr fun j hj => ?_
    rw [← hc] at hj
    have := h.child_lt_size hj
    exact decide_eq_true (by omega)
  rw [hself]

/-- Going back to the mark of a forest gives that forest, whatever grew on it. -/
theorem rollback_of_keeps (h : f.Keeps f') (hl : f.Linked) (hlt : f.size < f'.size) :
    f'.rollback f.mark = f := by
  have hnot : ¬ (f'.size ≤ f.mark.nodes ∧ f'.roots.length ≤ f.mark.roots) := by
    simp only [mark]; omega
  unfold rollback
  rw [if_neg hnot]
  show Forest.mk ((f'.nodes.take f.size).map fun n => { n with children := n.children.filter (· < f.size) })
    (f'.roots.take f.roots.length) f'.unattached (f'.byName.filter (·.2 < f.size)) = f
  rw [h.nodes, h.roots, h.byName, h.unattached, hl.map_filter_children (Nat.le_refl _)]

end
end Forest
end ClassNest
