import ClassNest.Forest.Render
import ClassNest.Proofs.Forest.History
import Mathlib.Data.List.Nodup

/-!
# Three ways through the links

The links of a forest are followed in three ways. `Forest.subtree` keeps a stack of nodes still to visit,
`Forest.ancestors` climbs from parent to parent, and `Forest.lines` recurses into the children and counts levels. On a
linked forest they tell the same story: the stack lists what a recursion would list (`Linked.isPreorder_iff`), what lies
below a node is what climbs to it (`Linked.within_iff`), and the level that is counted on the way down is the length of
the climb back (`Linked.linesWithin_eq`). So the rendered text has one line for each node of the arena
(`ofAdditions_walks`).
-/
namespace ClassNest.Forest

variable {f : Forest} {i j : Nat}

/-- What holds of a node if it holds of its children, holds of every node. -/
theorem Linked.induct_up (h : f.Linked) {P : NodeId → Prop}
    (step : ∀ i < f.size, (∀ c ∈ f.children i, P c) → P i) (hi : i < f.size) : P i := by
  -- children have larger ids, so that there are fewer ids behind them
  induction hn : f.size - i using Nat.strongRecOn generalizing i with
  | ind n ih =>
    refine step i hi fun c hc => ?_
    have hlt := h.parent_lt (h.mem_children.mp hc)
    have hsize := h.child_lt_size hc
    exact ih (f.size - c) (by omega) hsize rfl

/-! ## The climb and the subtree -/

/-- A node lies at or below another one just if it is that node or climbs to it. -/
theorem Linked.within_iff (h : f.Linked) {b : Nat} : f.Within b j ↔ j = b ∨ b ∈ f.ancestors j := by
  constructor
  · intro hw
    induction hw with
    | self => exact .inl rfl
    | child _ hp ih =>
      rw [ancestors_of_parent h hp, List.mem_cons]
      exact .inr (ih.imp_left Eq.symm)
  · induction j using Nat.strongRecOn with
    | ind j ih =>
      rintro (rfl | hb)
      · exact .self
      · cases hp : f.parent? j with
        | none => rw [ancestors_of_root hp] at hb; cases hb
        | some p =>
          rw [ancestors_of_parent h hp, List.mem_cons] at hb
          exact .child (ih p (h.parent_lt hp) (hb.imp_left Eq.symm)) hp

/-! ## The stack and the recursion -/

/-- What lies deeper in the stack is listed after everything above it. -/
theorem Traverses.append {xs ys as bs : List NodeId} (h : f.Traverses xs as) (h' : f.Traverses ys bs) :
    f.Traverses (xs ++ ys) (as ++ bs) := by
  induction h with
  | done => exact h'
  | visit hi _ ih =>
    rw [List.append_assoc] at ih
    exact .visit hi ih

theorem Traverses.unique {xs as bs : List NodeId} (h : f.Traverses xs as) (h' : f.Traverses xs bs) : as = bs := by
  induction h generalizing bs with
  | done => cases h'; rfl
  | visit _ _ ih =>
    cases h' with
    | visit _ rest => rw [ih rest]

theorem Linked.traverses_flatMap (h : f.Linked) : ∀ {xs : List NodeId}, (∀ i ∈ xs, i < f.size) →
    f.Traverses xs (xs.flatMap f.subtree)
  | [], _ => .done
  | x :: xs, hxs => by
    have hrest := h.traverses_flatMap fun i hi => hxs i (List.mem_cons_of_mem x hi)
    exact (h.traverses (hxs x List.mem_cons_self)).append hrest

theorem Linked.subtree_eq (h : f.Linked) (hi : i < f.size) :
    f.subtree i = i :: (f.children i).flatMap f.subtree := by
  have hbelow : f.Traverses (f.children i) ((f.children i).flatMap f.subtree) :=
    h.traverses_flatMap fun c hc => h.child_lt_size hc
  refine (h.traverses hi).unique (.visit hi ?_)
  rw [List.append_nil]
  exact hbelow

/-- The walk recurses: it lists a node, and then what it lists for the children, one after the other. -/
def IsPreorder (f : Forest) (walk : NodeId → List NodeId) : Prop :=
  ∀ i < f.size, walk i = i :: (f.children i).flatMap walk

/-- The stack does what the recursion does, and there is no other way to recurse. -/
theorem Linked.isPreorder_iff (h : f.Linked) {walk : NodeId → List NodeId} :
    f.IsPreorder walk ↔ ∀ i < f.size, walk i = f.subtree i := by
  constructor
  · intro hwalk i hi
    refine h.induct_up (P := fun i => walk i = f.subtree i) (fun i hi hchildren => ?_) hi
    rw [hwalk i hi, h.subtree_eq hi, List.flatMap_congr hchildren]
  · intro hwalk i hi
    rw [hwalk i hi, h.subtree_eq hi, List.flatMap_congr fun c hc => hwalk c (h.child_lt_size hc)]

/-! ## Lines -/

/-- The line of a node: two blanks for each node above it, and what the node shows. -/
def line? (f : Forest) (i : NodeId) : Option String :=
  (f.node? i).map fun n => indent (f.ancestors i).length ++ n.line

theorem exists_line? (hi : i < f.size) :
    ∃ n, f.node? i = some n ∧ f.line? i = some (indent (f.ancestors i).length ++ n.line) := by
  obtain ⟨n, hn⟩ : ∃ n, f.node? i = some n := ⟨_, List.getElem?_eq_getElem hi⟩
  exact ⟨n, hn, by rw [line?, hn, Option.map_some]⟩

theorem linesWithin_succ {n : Node} (hn : f.node? i = some n) (height depth : Nat) :
    f.linesWithin (height + 1) depth i =
      (indent depth ++ n.line) :: (f.children i).flatMap (f.linesWithin height (depth + 1)) := by
  simp only [linesWithin, children, hn]

/-- With levels enough for the nodes behind it, a node that is printed at its own level gives the lines of its subtree. -/
theorem Linked.linesWithin_eq (h : f.Linked) (hi : i < f.size) : ∀ {height : Nat}, f.size ≤ i + height →
    f.linesWithin height (f.ancestors i).length i = (f.subtree i).filterMap f.line? := by
  refine h.induct_up (P := fun i => ∀ {height : Nat}, f.size ≤ i + height →
    f.linesWithin height (f.ancestors i).length i = (f.subtree i).filterMap f.line?) (fun i hi hbelow => ?_) hi
  intro height hheight
  cases height with
  | zero => omega
  | succ height =>
    obtain ⟨n, hn, hline⟩ := exists_line? hi
    rw [linesWithin_succ hn, h.subtree_eq hi, List.filterMap_cons_some hline, List.filterMap_flatMap]
    congr 1
    refine List.flatMap_congr fun c hc => ?_
    have hp := h.mem_children.mp hc
    have hlt := h.parent_lt hp
    have hdepth : (f.ancestors c).length = (f.ancestors i).length + 1 := by
      rw [ancestors_of_parent h hp, List.length_cons]
    rw [← hdepth]
    exact hbelow c hc (by omega)

/-! ## Whole forests -/

theorem Linked.lines_eq (h : f.Linked) (hroots : f.Rooted) :
    f.lines = (f.roots.flatMap f.subtree).filterMap f.line? := by
  rw [List.filterMap_flatMap]
  refine List.flatMap_congr fun r hr => ?_
  obtain ⟨hlt, hp⟩ := hroots.mem_roots.mp hr
  have hlines : f.linesWithin f.size (f.ancestors r).length r = (f.subtree r).filterMap f.line? :=
    h.linesWithin_eq hlt (Nat.le_add_left f.size r)
  rwa [ancestors_of_root hp] at hlines

/-- Every node lies in the tree of one root, and is met there once. -/
theorem Linked.flatMap_subtree_perm (h : f.Linked) (hroots : f.Rooted) :
    (f.roots.flatMap f.subtree).Perm (List.range f.size) := by
  have hnodup : (f.roots.flatMap f.subtree).Nodup := by
    refine List.nodup_flatMap.mpr ⟨fun r hr => (subtree_spec h (hroots.mem_roots.mp hr).1).1, ?_⟩
    refine hroots.sorted.imp_of_mem fun {r q} hr hq hlt => List.disjoint_left.mpr fun j hjr hjq => ?_
    have htopr := ((h.mem_subtree_root hroots hr).mp hjr).2
    have htopq := ((h.mem_subtree_root hroots hq).mp hjq).2
    exact Nat.ne_of_lt hlt (htopr.symm.trans htopq)
  refine (List.perm_ext_iff_of_nodup hnodup List.nodup_range).mpr fun j => ?_
  rw [List.mem_flatMap, List.mem_range]
  constructor
  · rintro ⟨r, hr, hj⟩
    exact ((h.mem_subtree_root hroots hr).mp hj).1
  · intro hj
    have htop := (h.top_mem_roots hroots hj).1
    exact ⟨f.top j, htop, (h.mem_subtree_root hroots htop).mpr ⟨hj, rfl⟩⟩

theorem allowsAll_additions (h : History) (adds : List Addition) : h.allowsAll (adds.map (·.operation)) = true := by
  induction adds generalizing h with
  | nil => rfl
  | cons a adds ih =>
    rw [List.map_cons, History.allowsAll, ih, Bool.and_true]
    cases a <;> rfl

/-- Whatever nodes are added, and in whatever order: the stack lists what the recursion lists, without repeats, and a
node is listed for those that it climbs to. The text has one line for each node of the arena, tree by tree and in that
order, with two blanks for each step of the climb. -/
theorem ofAdditions_walks (adds : List Addition) :
    let f := ofAdditions adds
    (∀ walk : NodeId → List NodeId, f.IsPreorder walk ↔ ∀ i < f.size, walk i = f.subtree i) ∧
    (∀ i < f.size, f.Traverses [i] (f.subtree i) ∧ f.Climbs i (f.ancestors i) ∧ (f.subtree i).Nodup ∧
      ∀ j, j ∈ f.subtree i ↔ j = i ∨ i ∈ f.ancestors j) ∧
    f.render = String.join (((f.roots.flatMap f.subtree).filterMap f.line?).map (· ++ "\n")) ∧
    (∀ i < f.size, ∃ n, f.node? i = some n ∧ f.line? i = some (indent (f.ancestors i).length ++ n.line)) ∧
    (f.roots.flatMap f.subtree).Perm (List.range f.size) := by
  intro f
  have o : (History.run (adds.map (·.operation))).Orderly :=
    History.orderly_empty.foldl (allowsAll_additions {} adds)
  have hlinked : f.Linked := o.sound.linked
  have hrooted : f.Rooted := o.rooted
  refine ⟨fun walk => hlinked.isPreorder_iff, fun i hi => ?_, ?_, fun i hi => exists_line? hi,
    hlinked.flatMap_subtree_perm hrooted⟩
  · obtain ⟨hnodup, hmem⟩ := subtree_spec hlinked hi
    exact ⟨hlinked.traverses hi, hlinked.climbs hi, hnodup, fun j => (hmem j).trans hlinked.within_iff⟩
  · rw [render, hlinked.lines_eq hrooted]

-- the second child of the first root comes before the child of the first child, and is printed after it
example :
    let f := ofAdditions [.root (bareClass "app/A"), .child 0 (bareClass "app/A$B"), .root (bareClass "app/X"),
      .child 0 (bareClass "app/A$C"), .child 1 (bareClass "app/A$B$D"), .child 9 (bareClass "app/Y")]
    f.subtree 0 = [0, 1, 4, 3] ∧ f.render = "root A [app/A]\n  root A$B [app/A$B]\n    root A$B$D [app/A$B$D]\n" ++
      "  root A$C [app/A$C]\nroot X [app/X]\n" := by
  decide +kernel

end ClassNest.Forest
