import ClassNest.Proofs.Forest.Links
import ClassNest.Proofs.Growth.Spread

/-!
# The shape of a growing forest

What holds of the forest of a run at any moment, said through the views alone. `Labelled` tells what
the class nodes say: roots come from the classes that head a tree, all others from their record and
their class. `Breadth` tells where they stand: below the first of the classes that enclose them, in
the order in which that class lists them, and behind everything that hangs on earlier nodes.

Both survive the three ways in which an arena grows in a run: a new root, a class below the node
whose turn it is, and a lambda below a class of the last tree.
-/
namespace ClassNest

/-! ## Nodes as they are made -/

@[simp] theorem Ground.label_materialize (g : Ground) (r : NestedRecord) (c : ClassFile) :
    (g.materialize r c).label = g.materialize r c := by
  unfold Ground.materialize; cases r.kind <;> rfl

@[simp] theorem Ground.children_materialize (g : Ground) (r : NestedRecord) (c : ClassFile) :
    (g.materialize r c).children = [] := by
  unfold Ground.materialize; cases r.kind <;> rfl

@[simp] theorem Ground.className?_materialize (g : Ground) (r : NestedRecord) (c : ClassFile) :
    (g.materialize r c).className? = some c.name := by
  unfold Ground.materialize
  cases hk : r.kind <;> simp [Node.className?, Node.isLambda, NodeKind.ofNested]

@[simp] theorem Ground.enclosingClasses_materialize (g : Ground) (r : NestedRecord) (c : ClassFile) :
    (g.materialize r c).enclosingClasses = g.index.enclosingOf r.inner := by
  unfold Ground.materialize; cases r.kind <;> rfl

namespace Forest

/-- What the class nodes say. -/
structure Labelled (g : Ground) (f : Forest) : Prop where
  root : ∀ {i : Nat}, i ∈ f.roots → ∃ c ∈ g.rootClasses, f.label? i = some (.ofClass c)
  inner : ∀ {i p : Nat} {a : String}, f.className? i = some a → f.parent? i = some p →
    a ∉ g.skipped ∧ ∃ r c, g.index.record? a = some r ∧ g.registry.own? a = some c ∧
      f.label? i = some (g.materialize r c)

theorem Labelled.root_class {g : Ground} {f : Forest} (h : f.Labelled g) {i : Nat} (hi : i ∈ f.roots) :
    ∃ c ∈ g.rootClasses, f.className? i = some c.name := by
  obtain ⟨c, hc, hl⟩ := h.root hi
  exact ⟨c, hc, by unfold className?; rw [hl]; rfl⟩

/-- Where the class nodes stand, for trees that grow along `below`. -/
structure Breadth (below : String → List String) (f : Forest) : Prop where
  enclosed : ∀ {i p : Nat} {a : String}, f.className? i = some a → f.parent? i = some p →
    ∃ e, f.className? p = some e ∧ a ∈ below e
  /-- no node before the parent could have been the parent -/
  least : ∀ {i p j : Nat} {a e : String}, f.className? i = some a → f.parent? i = some p →
    f.className? j = some e → j < p → a ∉ below e
  mono : ∀ {i j p q : Nat} {a b : String}, f.className? i = some a → f.className? j = some b →
    f.parent? i = some p → f.parent? j = some q → i ≤ j → p ≤ q
  /-- a tree ends where the next root stands -/
  roots_le : ∀ {r j p : Nat}, r ∈ f.roots → r ≤ j → f.parent? j = some p → r ≤ p
  listed : ∀ {i : Nat} {e : String}, f.className? i = some e → (f.nestedNames i).Sublist (below e)

/-- The whole shape. -/
structure Shaped (g : Ground) (f : Forest) : Prop where
  linked : f.Linked
  rooted : f.Rooted
  named : f.Named
  labelled : f.Labelled g
  breadth : f.Breadth g.below

theorem shaped_empty (g : Ground) : Shaped g {} where
  linked := linked_empty
  rooted := rooted_empty
  named := named_empty
  labelled := ⟨fun h => (by cases h), fun h => (by cases h)⟩
  breadth := ⟨fun h => (by cases h), fun h => (by cases h), fun h => (by cases h), fun h => (by cases h),
    fun h => (by cases h)⟩

variable {g : Ground} {f : Forest} {n : Node} {p : Nat}

/-! ## A new root -/

theorem Labelled.addRoot (h : f.Labelled g) (hr : f.Rooted) {c : ClassFile} (hc : c ∈ g.rootClasses) :
    (f.addRoot (.ofClass c)).Labelled g := by
  refine ⟨?_, ?_⟩
  · intro i hi
    rw [roots_addRoot, List.mem_append, List.mem_singleton] at hi
    rw [label?_addRoot]
    rcases hi with hi | hi
    · rw [if_neg (Nat.ne_of_lt (hr.mem_roots.mp hi).1)]
      exact h.root hi
    · rw [if_pos hi]
      exact ⟨c, hc, rfl⟩
  · intro i q a ha hq
    rw [parent?_addRoot rfl] at hq
    have hne := Nat.ne_of_lt (lt_size_of_parent? hq)
    rw [className?_addRoot, if_neg hne] at ha
    rw [label?_addRoot, if_neg hne]
    exact h.inner ha hq

theorem Breadth.addRoot {below : String → List String} (h : f.Breadth below) (hl : f.Linked)
    (hp : n.parent = none) (hc : n.children = []) : (f.addRoot n).Breadth below := by
  -- whatever has a parent was there before, and the new node comes after all parents
  have hold : ∀ {i q : Nat} {a : String}, (f.addRoot n).className? i = some a →
    (f.addRoot n).parent? i = some q →
      f.className? i = some a ∧ f.parent? i = some q ∧ i < f.size := by
    intro i q a ha hq
    rw [parent?_addRoot hp] at hq
    have hlt := lt_size_of_parent? hq
    rw [className?_addRoot, if_neg (Nat.ne_of_lt hlt)] at ha
    exact ⟨ha, hq, hlt⟩
  refine ⟨?_, ?_, ?_, ?_, ?_⟩
  · intro i q a ha hq
    obtain ⟨ha, hq, hi⟩ := hold ha hq
    obtain ⟨e, he, hm⟩ := h.enclosed ha hq
    exact ⟨e, className?_addRoot_some he, hm⟩
  · intro i q j a e ha hq he hj
    obtain ⟨ha, hq, hi⟩ := hold ha hq
    have hlt := hl.parent_lt hq
    rw [className?_addRoot, if_neg (by omega)] at he
    exact h.least ha hq he hj
  · intro i j q r a b ha hb hq hr hij
    obtain ⟨ha, hq, _⟩ := hold ha hq
    obtain ⟨hb, hr, _⟩ := hold hb hr
    exact h.mono ha hb hq hr hij
  · intro r j q hr hj hq
    rw [parent?_addRoot hp] at hq
    have hlt := lt_size_of_parent? hq
    rw [roots_addRoot, List.mem_append, List.mem_singleton] at hr
    rcases hr with hr | hr
    · exact h.roots_le hr hj hq
    · omega
  · intro i e he
    have hnames : (f.addRoot n).nestedNames i = f.nestedNames i := by
      unfold nestedNames
      rw [children_addRoot hc]
      apply List.filterMap_congr
      intro j hj
      rw [className?_addRoot, if_neg (Nat.ne_of_lt (hl.child_lt_size hj))]
    rw [hnames]
    by_cases hi : i = f.size
    · unfold nestedNames
      rw [children_eq_nil (Nat.le_of_eq hi.symm)]
      exact List.nil_sublist _
    · rw [className?_addRoot, if_neg hi] at he
      exact h.listed he

theorem Shaped.addRoot (h : f.Shaped g) {c : ClassFile} (hc : c ∈ g.rootClasses)
    (hf : f.find? c.name = none) :
    (f.addRoot (.ofClass c)).Shaped g where
  linked := h.linked.addRoot rfl rfl
  rooted := h.rooted.addRoot rfl
  named := h.named.addRoot fun a ha => by cases ha; exact hf
  labelled := h.labelled.addRoot h.rooted hc
  breadth := h.breadth.addRoot h.linked rfl rfl

/-! ## A new child -/

/-- A child that is a class and whose turn it is: `p` encloses it, no node before `p` does, nothing
hangs on a node behind `p`, and `p` lists it behind the children it has. -/
structure Fits (below : String → List String) (f : Forest) (p : Nat) (a : String) : Prop where
  parents : ∀ {i q : Nat}, f.parent? i = some q → q ≤ p
  least : ∀ {j : Nat} {e : String}, f.className? j = some e → j < p → a ∉ below e
  listed : ∀ {e : String}, f.className? p = some e → (f.nestedNames p ++ [a]).Sublist (below e)

theorem Breadth.graft {below : String → List String} (h : f.Breadth below) (hl : f.Linked)
    (hc : n.children = [])
    {e : String} (he : f.className? p = some e) (hroots : ∀ r ∈ f.roots, r ≤ p)
    (hfit : ∀ a, n.className? = some a → f.Fits below p a) : (f.graft p n).Breadth below := by
  have hp : p < f.size := lt_size_of_className? he
  refine ⟨?_, ?_, ?_, ?_, ?_⟩
  · intro i q a ha hq
    rcases parent?_graft_cases hq with ⟨hi, hq⟩ | ⟨hi, rfl⟩
    · obtain ⟨_, ha⟩ := (className?_graft_cases ha).resolve_right fun hr => by omega
      obtain ⟨b, hb, hm⟩ := h.enclosed ha hq
      exact ⟨b, className?_graft_some hb, hm⟩
    · obtain ⟨_, ha⟩ := (className?_graft_cases ha).resolve_left fun hr => by omega
      refine ⟨e, className?_graft_some he, ((hfit a ha).listed he).subset ?_⟩
      simp
  · intro i q j a b ha hq hb hj
    have hjold : f.className? j = some b := by
      have hq' : q < f.size := by
        rcases parent?_graft_cases hq with ⟨_, hq⟩ | ⟨_, rfl⟩
        · have := hl.parent_lt hq; omega
        · exact hp
      exact ((className?_graft_cases hb).resolve_right fun hr => by omega).2
    rcases parent?_graft_cases hq with ⟨hi, hq⟩ | ⟨hi, rfl⟩
    · obtain ⟨_, ha⟩ := (className?_graft_cases ha).resolve_right fun hr => by omega
      exact h.least ha hq hjold hj
    · obtain ⟨_, ha⟩ := (className?_graft_cases ha).resolve_left fun hr => by omega
      exact (hfit a ha).least hjold hj
  · intro i j q r a b ha hb hq hr hij
    rcases parent?_graft_cases hr with ⟨hj, hr⟩ | ⟨hj, rfl⟩
    · obtain ⟨_, hb⟩ := (className?_graft_cases hb).resolve_right fun hx => by omega
      obtain ⟨_, ha⟩ := (className?_graft_cases ha).resolve_right fun hx => by omega
      obtain ⟨_, hq⟩ := (parent?_graft_cases hq).resolve_right fun hx => by omega
      exact h.mono ha hb hq hr hij
    · obtain ⟨_, hb⟩ := (className?_graft_cases hb).resolve_left fun hx => by omega
      rcases parent?_graft_cases hq with ⟨_, hq⟩ | ⟨_, rfl⟩
      · exact (hfit b hb).parents hq
      · exact Nat.le_refl _
  · intro r j q hr hj hq
    rcases parent?_graft_cases hq with ⟨_, hq⟩ | ⟨_, rfl⟩
    · exact h.roots_le hr hj hq
    · exact hroots r hr
  · intro i b hb
    rw [hl.nestedNames_graft hc hp]
    by_cases hi : i = p
    · subst hi
      rw [if_pos rfl]
      obtain ⟨_, hb⟩ := (className?_graft_cases hb).resolve_right fun hx => by omega
      cases hn : n.className? with
      | none => simpa using h.listed hb
      | some a => exact (hfit a hn).listed hb
    · rw [if_neg hi]
      rcases className?_graft_cases hb with ⟨_, hb⟩ | ⟨hi, _⟩
      · exact h.listed hb
      · unfold nestedNames
        rw [children_eq_nil (Nat.le_of_eq hi.symm)]
        exact List.nil_sublist _

theorem Labelled.graft (h : f.Labelled g) (hr : f.Rooted)
    (hn : ∀ a, n.className? = some a → a ∉ g.skipped ∧ ∃ r c, g.index.record? a = some r ∧
      g.registry.own? a = some c ∧ n.label = g.materialize r c) : (f.graft p n).Labelled g := by
  refine ⟨?_, ?_⟩
  · intro i hi
    rw [label?_graft, if_neg (Nat.ne_of_lt (hr.mem_roots.mp hi).1)]
    exact h.root hi
  · intro i q a ha hq
    rw [label?_graft]
    rcases className?_graft_cases ha with ⟨hi, ha⟩ | ⟨hi, ha⟩
    · obtain ⟨_, hq⟩ := (parent?_graft_cases hq).resolve_right fun hx => by omega
      rw [if_neg (Nat.ne_of_lt hi)]
      exact h.inner ha hq
    · obtain ⟨hs, r, c, h1, h2, h3⟩ := hn a ha
      rw [if_pos hi]
      exact ⟨hs, r, c, h1, h2, by rw [h3]⟩

theorem Shaped.graft_class (h : f.Shaped g) {e a : String} {r : NestedRecord} {c : ClassFile}
    (he : f.className? p = some e) (hroots : ∀ r ∈ f.roots, r ≤ p) (hfit : f.Fits g.below p a)
    (hf : f.find? a = none) (hs : a ∉ g.skipped) (hr : g.index.record? a = some r) (hc : g.registry.own? a = some c)
    (hn : c.name = a) : (f.graft p (g.materialize r c)).Shaped g := by
  have hname : ∀ b, (g.materialize r c).className? = some b → b = a := by
    intro b hb
    rw [Ground.className?_materialize, hn] at hb
    cases hb; rfl
  exact {
    linked := h.linked.graft (by simp) (lt_size_of_className? he)
    rooted := h.rooted.graft
    named := h.named.graft fun b hb => by rw [hname b hb]; exact hf
    labelled := h.labelled.graft h.rooted fun b hb => by
      rw [hname b hb]; exact ⟨hs, r, c, hr, hc, by simp⟩
    breadth := h.breadth.graft h.linked (by simp) he hroots fun b hb => by rw [hname b hb]; exact hfit }

theorem Shaped.graft_lambda (h : f.Shaped g) {e : String} (he : f.className? p = some e)
    (hroots : ∀ r ∈ f.roots, r ≤ p) (info : LambdaInfo) : (f.graft p (.ofLambda info)).Shaped g where
  linked := h.linked.graft rfl (lt_size_of_className? he)
  rooted := h.rooted.graft
  named := h.named.graft fun a ha => by cases ha
  labelled := h.labelled.graft h.rooted fun a ha => by cases ha
  breadth := h.breadth.graft h.linked rfl he hroots fun a ha => by cases ha

end Forest
end ClassNest
