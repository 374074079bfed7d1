import ClassNest.Proofs.Forest.Links

/-!
# Going back to any mark

A mark is two counts, and nothing ties them to the forest that is cut down to them. On a linked forest the guard of
`Forest.rollback` makes no difference (`rollback_eq_cut`), so that one lemma per view tells what is left. Links survive
every cut, whatever the counts are (`Linked.cut`). The roots survive it just if both counts cut them at the same place
(`Rooted.cut_iff`), and this is what a mark has to do to fit a forest.
-/
namespace ClassNest

/-- As many roots as the mark counts are the roots before the place where the arena is cut. -/
def Mark.Fits (m : Mark) (f : Forest) : Prop := f.roots.take m.roots = f.roots.filter (· < m.nodes)

/-- The mark counts nodes that are there, and the roots among them. -/
structure Mark.LiesIn (m : Mark) (f : Forest) : Prop where
  nodes_le : m.nodes ≤ f.size
  roots_le : m.roots ≤ f.roots.length
  fits : m.Fits f

namespace Forest

/-- The forest cut down to the counts of a mark. -/
def cut (f : Forest) (m : Mark) : Forest :=
  { f with
    nodes := (f.nodes.take m.nodes).map fun n => { n with children := n.children.filter (· < m.nodes) }
    roots := f.roots.take m.roots
    byName := f.byName.filter (·.2 < m.nodes) }

/-- Every name leads to a node that stands for the class of this name. -/
def NamesLead (f : Forest) : Prop := ∀ e ∈ f.byName, f.className? e.2 = some e.1

section
variable {f : Forest} {n : Node} {m : Mark} {i p : Nat}

/-- What stands before two cuts stands before the earlier one. -/
theorem filter_lt_filter_lt {α : Type} (key : α → Nat) {a b : Nat} (hab : a ≤ b) (xs : List α) :
    (xs.filter (key · < b)).filter (key · < a) = xs.filter (key · < a) := by
  rw [List.filter_filter]
  refine List.filter_congr fun x _ => ?_
  by_cases hx : key x < a
  · simp [hx, Nat.lt_of_lt_of_le hx hab]
  · simp [hx]

/-- Beyond both ends of the arena there is nothing to cut off. -/
theorem rollback_eq_cut (h : f.Linked) (hn : f.NamesLead) (m : Mark) : f.rollback m = f.cut m := by
  unfold rollback
  split
  · rename_i hm
    obtain ⟨hnodes, hroots⟩ := hm
    have hkept : (f.nodes.take m.nodes).map (fun n => { n with children := n.children.filter (· < m.nodes) }) =
        f.nodes := by
      rw [List.take_of_length_le hnodes]
      exact h.map_filter_children hnodes
    have hnames : f.byName.filter (·.2 < m.nodes) = f.byName := by
      refine List.filter_eq_self.mpr fun e he => ?_
      have := lt_size_of_className? (hn e he)
      exact decide_eq_true (by omega)
    unfold cut
    rw [hkept, hnames, List.take_of_length_le hroots]
  · rfl

/-! ## What is left, view by view -/

theorem size_cut : (f.cut m).size = min m.nodes f.size := by simp [cut, size]

theorem node?_cut : (f.cut m).node? i =
    if i < m.nodes then (f.node? i).map fun n => { n with children := n.children.filter (· < m.nodes) } else none := by
  unfold node? cut
  rw [List.getElem?_map, List.getElem?_take]
  split <;> rfl

theorem parent?_cut : (f.cut m).parent? i = if i < m.nodes then f.parent? i else none := by
  unfold parent?
  rw [node?_cut]
  split
  · cases f.node? i <;> rfl
  · rfl

theorem children_cut : (f.cut m).children i =
    if i < m.nodes then (f.children i).filter (· < m.nodes) else [] := by
  unfold children
  rw [node?_cut]
  by_cases hi : i < m.nodes
  · rw [if_pos hi, if_pos hi]
    cases f.node? i <;> rfl
  · rw [if_neg hi, if_neg hi]

theorem className?_cut : (f.cut m).className? i = if i < m.nodes then f.className? i else none := by
  unfold className? label?
  rw [node?_cut]
  split
  · cases f.node? i <;> rfl
  · rfl

/-! ## What every cut keeps -/

theorem Linked.cut (h : f.Linked) (m : Mark) : (f.cut m).Linked := by
  refine ⟨?_, ?_, ?_⟩
  · intro i p
    rw [children_cut, parent?_cut]
    by_cases hi : i < m.nodes
    · by_cases hp : p < m.nodes
      · simp [hi, hp, h.mem_children]
      · have hnone : f.parent? i ≠ some p := fun hip => by have := h.parent_lt hip; omega
        simp [hi, hp, hnone]
    · by_cases hp : p < m.nodes <;> simp [hi, hp]
  · intro i p
    rw [parent?_cut]
    split
    · exact h.parent_lt
    · intro hip; cases hip
  · intro p
    rw [children_cut]
    split
    · exact (h.sorted p).filter _
    · exact List.Pairwise.nil

theorem NamesLead.cut (h : f.NamesLead) (m : Mark) : (f.cut m).NamesLead := by
  intro e he
  obtain ⟨he, hlt⟩ := List.mem_filter.mp he
  rw [className?_cut, if_pos (of_decide_eq_true hlt)]
  exact h e he

theorem namesLead_empty : NamesLead {} := fun _ he => nomatch he

/-- A pushed class takes over its name, and the other names lead where they led. -/
theorem mem_byName_push {e : String × NodeId} (he : e ∈ (f.push n).byName) :
    n.className? = some e.1 ∧ e.2 = f.size ∨ e ∈ f.byName := by
  unfold push at he
  by_cases hl : n.isLambda = true
  · simp only [hl, ite_true] at he
    exact .inr he
  · simp only [hl, Bool.false_eq_true, ite_false, List.mem_cons, List.mem_filter] at he
    rcases he with rfl | ⟨he, _⟩
    · exact .inl ⟨by simp [Node.className?, hl], rfl⟩
    · exact .inr he

theorem NamesLead.addRoot (h : f.NamesLead) : (f.addRoot n).NamesLead := by
  intro e he
  rcases mem_byName_push he with ⟨hn, hi⟩ | he
  · rw [className?_addRoot, if_pos hi, hn]
  · exact className?_addRoot_some (h e he)

theorem NamesLead.graft (h : f.NamesLead) : (f.graft p n).NamesLead := by
  intro e he
  rcases mem_byName_push he with ⟨hn, hi⟩ | he
  · rw [className?_graft, if_pos hi]
    exact hn
  · exact className?_graft_some (h e he)

theorem mem_byName_of_find? {name : String} (h : f.find? name = some i) : (name, i) ∈ f.byName := by
  obtain ⟨before, after, hsplit, _⟩ := List.lookup_eq_some_iff.mp h
  rw [hsplit]
  simp

/-! ## Roots -/

/-- The nodes without a parent, in the order of the arena. -/
def parentless (f : Forest) : List NodeId := (List.range f.size).filter fun i => (f.parent? i).isNone

theorem mem_parentless : i ∈ f.parentless ↔ i < f.size ∧ f.parent? i = none := by
  simp [parentless, List.mem_filter]

theorem parentless_sorted : f.parentless.Pairwise (· < ·) := List.pairwise_lt_range.filter _

theorem eq_of_mem_iff_of_sorted {l l' : List Nat} (h : l.Pairwise (· < ·)) (h' : l'.Pairwise (· < ·))
    (hmem : ∀ i, i ∈ l ↔ i ∈ l') : l = l' := by
  have hnodup : ∀ {l : List Nat}, l.Pairwise (· < ·) → l.Nodup := fun hl => hl.imp fun hlt => Nat.ne_of_lt hlt
  have hperm : l.Perm l' := (List.perm_ext_iff_of_nodup (hnodup h) (hnodup h')).mpr hmem
  exact hperm.eq_of_pairwise (fun a b _ _ hab hba => absurd hba (Nat.lt_asymm hab)) h h'

theorem rooted_iff : f.Rooted ↔ f.roots = f.parentless := by
  constructor
  · intro h
    refine eq_of_mem_iff_of_sorted h.sorted parentless_sorted fun i => ?_
    rw [h.mem_roots, mem_parentless]
  · intro h
    exact ⟨fun {i} => by rw [h, mem_parentless], h ▸ parentless_sorted⟩

/-- A cut leaves the nodes without a parent that stand before it. -/
theorem parentless_cut : (f.cut m).parentless = f.parentless.filter (· < m.nodes) := by
  refine eq_of_mem_iff_of_sorted parentless_sorted (parentless_sorted.filter _) fun i => ?_
  rw [mem_parentless, List.mem_filter, mem_parentless, size_cut, parent?_cut]
  have hmin : i < min m.nodes f.size ↔ i < m.nodes ∧ i < f.size := Nat.lt_min
  by_cases hi : i < m.nodes
  · simp [hmin, hi]
  · simp [hmin, hi]

theorem Rooted.cut_iff (h : f.Rooted) : (f.cut m).Rooted ↔ m.Fits f := by
  rw [rooted_iff, parentless_cut, ← rooted_iff.mp h]
  rfl

end
end Forest

/-! ## Marks that stay in place -/

section
variable {f : Forest} {n : Node} {m m' : Mark} {p : Nat}

theorem Forest.Rooted.liesIn_mark (h : f.Rooted) : f.mark.LiesIn f where
  nodes_le := Nat.le_refl _
  roots_le := Nat.le_refl _
  fits := by
    show f.roots.take f.roots.length = f.roots.filter (· < f.size)
    rw [List.take_length, List.filter_eq_self.mpr]
    exact fun i hi => decide_eq_true (h.mem_roots.mp hi).1

namespace Mark.LiesIn

theorem addRoot (h : m.LiesIn f) : m.LiesIn (f.addRoot n) where
  nodes_le := by rw [Forest.size_addRoot]; exact Nat.le_succ_of_le h.nodes_le
  roots_le := by rw [Forest.roots_addRoot, List.length_append]; exact Nat.le_add_right_of_le h.roots_le
  fits := by
    unfold Fits
    rw [Forest.roots_addRoot, List.take_append_of_le_length h.roots_le, h.fits, List.filter_append]
    have hnew : [f.size].filter (· < m.nodes) = [] := by simpa using h.nodes_le
    rw [hnew, List.append_nil]

theorem graft (h : m.LiesIn f) : m.LiesIn (f.graft p n) where
  nodes_le := by rw [Forest.size_graft]; exact Nat.le_succ_of_le h.nodes_le
  roots_le := h.roots_le
  fits := h.fits

/-- A mark stays in place when the arena goes back to a later one. -/
theorem cut (h : m.LiesIn f) (hfits : m'.Fits f) (hnodes : m.nodes ≤ m'.nodes) (hroots : m.roots ≤ m'.roots) :
    m.LiesIn (f.cut m') where
  nodes_le := by rw [Forest.size_cut]; exact Nat.le_min.mpr ⟨hnodes, h.nodes_le⟩
  roots_le := by
    show m.roots ≤ (f.roots.take m'.roots).length
    rw [List.length_take]
    exact Nat.le_min.mpr ⟨hroots, h.roots_le⟩
  fits := by
    show (f.roots.take m'.roots).take m.roots = (f.roots.take m'.roots).filter (· < m.nodes)
    rw [List.take_take, Nat.min_eq_left hroots, h.fits, hfits, Forest.filter_lt_filter_lt (fun i => i) hnodes]

end Mark.LiesIn
end
end ClassNest
