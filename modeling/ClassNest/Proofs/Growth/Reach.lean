import ClassNest.Proofs.Growth.Trees

/-!
# What a tree reaches

Which classes the tree of a class holds and which names it visits, said without the loop. A class
reaches whatever nesting steps lead to through classes that can have a node (`Ground.Reaches`), and
meets the names below those (`Ground.Meets`). One more tree, if there is room for it, adds to a
finished forest a node for everything that its root reaches (`has_grow_iff`), and to the names visited
everything that its root meets (`visited_grow_iff`), as far as they are not there yet.
-/
namespace ClassNest

namespace Ground

/-- Nesting steps lead from `start` to the class, through classes under reconstruction that need not be
skipped. -/
inductive Reaches (g : Ground) (start : String) : String → Prop
  | self : Reaches g start start
  | step {e a : String} (he : Reaches g start e) (hb : a ∈ g.below e) (hs : a ∉ g.skipped)
      (ho : g.registry.isOwn a = true) : Reaches g start a

/-- The name is looked at while the tree of `start` grows. -/
def Meets (g : Ground) (start name : String) : Prop :=
  name = start ∨ ∃ e, g.Reaches start e ∧ name ∈ g.below e

end Ground

/-- A node stands for the class. -/
def Forest.Has (f : Forest) (a : String) : Prop := ∃ i, f.className? i = some a

theorem Forest.not_has_empty {a : String} : ¬ ({} : Forest).Has a :=
  fun ⟨i, hi⟩ => Nat.not_lt_zero i (Forest.lt_size_of_className? hi)

theorem Forest.Named.has_iff {f : Forest} (h : f.Named) {a : String} :
    f.Has a ↔ (f.find? a).isSome = true := by
  simp only [Has, Option.isSome_iff_exists, h.find?_iff]

theorem Forest.Named.not_has_iff {f : Forest} (h : f.Named) {a : String} :
    ¬ f.Has a ↔ f.find? a = none := by
  rw [h.has_iff]; simp

namespace Growth
variable {g : Ground} {s : Growth} {c : ClassFile} {a : String}

/-! ## No name is visited twice -/

theorem nodup_visit {k : Nat} (h : s.visits.Nodup) (name : String) : (s.visit g k name).state.visits.Nodup := by
  have hpush := nodup_pushNew h name
  rcases visit_cases g k s name with
    ⟨_, he⟩ | ⟨hv, _, log, he⟩ | ⟨hv, _, r, d, _, _, ⟨_, _, he⟩ | ⟨fault, _, he⟩⟩
  · rw [he]; exact h
  all_goals
    rw [pushNew_of_not_mem hv] at hpush
    rw [he]; exact hpush

theorem nodup_visitAll {k : Nat} : ∀ (names : List String) {s : Growth}, s.visits.Nodup →
    (s.visitAll g k names).state.visits.Nodup
  | [], _, h => h
  | name :: names, _, h =>
    have hone := nodup_visit h name
    Step.state_andThen (P := fun s : Growth => s.visits.Nodup) hone fun _ => nodup_visitAll names hone

theorem Spreads.nodup {queue : List (NodeId × String)} {r : Step Growth Unit} (hr : Spreads g s queue r) :
    s.visits.Nodup → r.state.visits.Nodup := by
  induction hr with
  | done s => exact id
  | fail _ => exact nodup_visitAll _
  | step _ _ ih => exact fun h => ih (nodup_visitAll _ h)

theorem nodup_grow (h : s.visits.Nodup) (c : ClassFile) : (s.grow g c).state.visits.Nodup := by
  generalize hgrown : s.grow g c = grown
  cases hgrown ▸ grow_heads g s c with
  | full => exact h
  | grown _ hr => exact hr.nodup (nodup_pushNew h c.name)

/-! ## Nodes -/

/-- What a class with a node reaches has a node. -/
theorem Settled.has_of_reaches (h : s.Settled g) (hg : g.Sound) {start : String} (hr : g.Reaches start a)
    (hs : s.forest.Has start) : s.forest.Has a := by
  induction hr with
  | self => exact hs
  | step _ hb hskip hown ih =>
    obtain ⟨i, hi⟩ := ih
    exact h.tallied.placed (h.closed hi _ hb) hskip (hg.isNested_below hb).2 hown

section
variable (h : s.Settled g) (hc : c ∈ g.rootClasses) (hv : c.name ∉ s.visits) {root : NodeId}
  (hok : (s.grow g c).answer = .ok root)
include h hc hv hok

/-- The new nodes hang on the new root. -/
theorem reaches_of_new {i : Nat} (hi : s.forest.size ≤ i)
    (ha : (s.grow g c).state.forest.className? i = some a) : g.Reaches c.name a := by
  obtain ⟨_, hs, ht⟩ := grow_settled h hc hv hok
  induction i using Nat.strongRecOn generalizing a with
  | ind i ih =>
    have hroot : s.forest.size ∈ (s.grow g c).state.forest.roots := by rw [ht.roots]; simp
    cases hp : (s.grow g c).state.forest.parent? i with
    | none =>
      have hr := hs.shaped.rooted.mem_roots.mpr ⟨Forest.lt_size_of_className? ha, hp⟩
      rw [ht.roots, List.mem_append, List.mem_singleton] at hr
      rcases hr with hr | rfl
      · have hlt := (h.shaped.rooted.mem_roots.mp hr).1
        omega
      · rw [ht.root] at ha
        cases ha
        exact .self
    | some p =>
      obtain ⟨e, he, hb⟩ := hs.shaped.breadth.enclosed ha hp
      obtain ⟨hskip, r, d, _, hown, _⟩ := hs.shaped.labelled.inner ha hp
      refine .step (ih p (hs.shaped.linked.parent_lt hp) (hs.shaped.breadth.roots_le hroot hi hp) he) hb hskip ?_
      rw [Registry.isOwn, hown]
      rfl

theorem has_grow_iff (hg : g.Sound) :
    (s.grow g c).state.forest.Has a ↔ s.forest.Has a ∨ g.Reaches c.name a := by
  obtain ⟨_, hs, ht⟩ := grow_settled h hc hv hok
  constructor
  · rintro ⟨i, hi⟩
    by_cases hlt : i < s.forest.size
    · exact .inl ⟨i, by rw [← ht.keeps.className? hlt]; exact hi⟩
    · exact .inr (reaches_of_new h hc hv hok (Nat.le_of_not_lt hlt) hi)
  · rintro (⟨i, hi⟩ | hr)
    · exact ⟨i, by rw [ht.keeps.className? (Forest.lt_size_of_className? hi)]; exact hi⟩
    · exact hs.has_of_reaches hg hr ⟨_, ht.root⟩

/-- The classes of the new tree are those that its root reaches and that have no node yet. -/
theorem new_grow_iff (hg : g.Sound) :
    (∃ i, s.forest.size ≤ i ∧ (s.grow g c).state.forest.className? i = some a) ↔
      g.Reaches c.name a ∧ ¬ s.forest.Has a := by
  obtain ⟨_, hs, ht⟩ := grow_settled h hc hv hok
  constructor
  · rintro ⟨i, hi, ha⟩
    refine ⟨reaches_of_new h hc hv hok hi ha, ?_⟩
    rintro ⟨j, hj⟩
    have hlt := Forest.lt_size_of_className? hj
    rw [← ht.keeps.className? hlt] at hj
    have hij := hs.shaped.named.eq_of_className? ha hj
    omega
  · rintro ⟨hr, hnot⟩
    obtain ⟨i, hi⟩ := (has_grow_iff h hc hv hok hg).mpr (.inr hr)
    refine ⟨i, Nat.le_of_not_lt fun hlt => hnot ⟨i, ?_⟩, hi⟩
    rw [← ht.keeps.className? hlt]
    exact hi

/-! ## Visits -/

theorem visited_grow_iff (hg : g.Sound) :
    a ∈ (s.grow g c).state.visits ↔ a ∈ s.visits ∨ g.Meets c.name a := by
  obtain ⟨_, hs, ht⟩ := grow_settled h hc hv hok
  constructor
  · intro ha
    rcases hs.tallied.origin ha with ⟨r, hr, hra⟩ | ⟨i, e, he, hb⟩
    · rw [ht.roots, List.mem_append, List.mem_singleton] at hr
      rcases hr with hr | rfl
      · rw [ht.keeps.className? (h.shaped.rooted.mem_roots.mp hr).1] at hra
        exact .inl (h.tallied.visited hra)
      · rw [ht.root] at hra
        cases hra
        exact .inr (.inl rfl)
    · rcases (has_grow_iff h hc hv hok hg).mp ⟨i, he⟩ with ⟨j, hj⟩ | hr
      · exact .inl (h.closed hj _ hb)
      · exact .inr (.inr ⟨e, hr, hb⟩)
  · rintro (ha | rfl | ⟨e, hr, hb⟩)
    · exact ht.visits.subset ha
    · exact hs.tallied.visited ht.root
    · obtain ⟨i, hi⟩ := (has_grow_iff h hc hv hok hg).mpr (.inr hr)
      exact hs.closed hi _ hb

/-- The names that the new tree is the first to visit. -/
theorem mem_newVisits_iff (hg : g.Sound) (hnd : s.visits.Nodup) :
    a ∈ (s.grow g c).state.visits.drop s.visits.length ↔ a ∉ s.visits ∧ g.Meets c.name a := by
  obtain ⟨rest, hrest⟩ := (grow_settled h hc hv hok).2.2.visits
  have hnodup := nodup_grow (g := g) hnd c
  have hmem := visited_grow_iff h hc hv hok hg (a := a)
  rw [← hrest] at hnodup hmem ⊢
  rw [List.drop_left]
  rw [List.mem_append] at hmem
  have hfresh : a ∈ rest → a ∉ s.visits := fun hr hs =>
    (List.nodup_append.mp hnodup).2.2 a hs a hr rfl
  constructor
  · intro hr
    exact ⟨hfresh hr, (hmem.mp (.inr hr)).resolve_left (hfresh hr)⟩
  · rintro ⟨hnot, hm⟩
    exact (hmem.mpr (.inr hm)).resolve_left hnot

end
end Growth
end ClassNest
