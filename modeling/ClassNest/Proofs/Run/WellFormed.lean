import ClassNest.Proofs.Run.BreadthFirst
import ClassNest.Proofs.Run.Lambdas
import Mathlib.Data.List.Nodup

/-!
# The forest of an outcome is well formed

What anyone who walks the forest of an outcome may rely on, said of its nodes alone. The links agree
in both directions and lead upwards in the arena, the roots are the nodes without a parent, and the
trees are intervals: a node lies in the tree of the last root that is not behind it
(`Shaped.top_eq_iff`), so that each tree takes up the ids from its root to the next one.
-/
namespace ClassNest

namespace Forest

/-- The id at which the tree of the `k`-th root ends: that of the next root, or the size. -/
def treeEnd (f : Forest) (k : Nat) : Nat := f.roots[k + 1]?.getD f.size

/-- What holds of the forest of every run. -/
structure WellFormed (f : Forest) : Prop where
  roots_sorted : f.roots.Pairwise (· < ·)
  root : ∀ {i : NodeId}, i ∈ f.roots → ∃ m, f.node? i = some m ∧ m.kind = .root ∧ m.parent = none
  parented : ∀ {i : NodeId}, i < f.size → i ∉ f.roots → ∃ p, f.parent? i = some p
  mem_children : ∀ {i p : NodeId}, f.parent? i = some p ↔ i ∈ f.children p
  child : ∀ {i p : NodeId}, i ∈ f.children p → (f.children p).count i = 1 ∧ p < i
  /-- a tree is an interval of the arena -/
  tree : ∀ {k : Nat} {r : NodeId}, f.roots[k]? = some r →
    (f.subtree r).Perm (List.range' r (f.treeEnd k - r))
  one_tree : ∀ {i : NodeId}, i < f.size → ∃! r, r ∈ f.roots ∧ i ∈ f.subtree r
  found : ∀ {name : String} {i : NodeId}, f.find? name = some i ↔
    ∃ m, f.node? i = some m ∧ m.kind ≠ .lambda ∧ m.qualifiedName = name
  /-- a nested class knows the class it hangs on -/
  enclosed : ∀ {i : NodeId} {m : Node}, f.node? i = some m → m.kind ≠ .root → m.kind ≠ .lambda →
    ∃ p n, m.parent = some p ∧ f.node? p = some n ∧ n.qualifiedName ∈ m.enclosingClasses
  lambda : ∀ {i : NodeId} {m : Node}, f.node? i = some m → m.kind = .lambda → m.children = []

/-! ## Trees as intervals -/

section
variable {g : Ground} {f : Forest}

/-- Between an entry of an increasing list and the next one there is no third. -/
theorem eq_of_lt_next {l : List Nat} (h : l.Pairwise (· < ·)) {k r q : Nat} (hk : l[k]? = some r)
    (hq : q ∈ l) (hle : r ≤ q) (hlt : ∀ n, l[k + 1]? = some n → q < n) : q = r := by
  have hsorted := List.pairwise_iff_getElem.mp h
  obtain ⟨hkl, rfl⟩ := List.getElem?_eq_some_iff.mp hk
  obtain ⟨i, hil, rfl⟩ := List.getElem_of_mem hq
  rcases Nat.lt_trichotomy i k with hik | rfl | hik
  · have hless := hsorted i k hil hkl hik
    omega
  · rfl
  · have hnl : k + 1 < l.length := by omega
    have hnext := hlt l[k + 1] (List.getElem?_eq_getElem hnl)
    rcases Nat.lt_or_eq_of_le (Nat.succ_le_of_lt hik) with hki | rfl
    · have hless := hsorted (k + 1) i hnl hil hki
      omega
    · exact absurd hnext (Nat.lt_irrefl _)

theorem lt_next {l : List Nat} (h : l.Pairwise (· < ·)) {k r n : Nat} (hk : l[k]? = some r)
    (hn : l[k + 1]? = some n) : r < n := by
  obtain ⟨hkl, rfl⟩ := List.getElem?_eq_some_iff.mp hk
  obtain ⟨hnl, rfl⟩ := List.getElem?_eq_some_iff.mp hn
  exact List.pairwise_iff_getElem.mp h k (k + 1) hkl hnl (Nat.lt_succ_self k)

theorem Shaped.top_eq_iff (h : f.Shaped g) {k r j : Nat} (hk : f.roots[k]? = some r) (hj : j < f.size) :
    f.top j = r ↔ r ≤ j ∧ j < f.treeEnd k := by
  obtain ⟨htop, hle⟩ := h.top_mem_roots hj
  constructor
  · intro ht
    refine ⟨ht ▸ hle, ?_⟩
    unfold treeEnd
    cases hn : f.roots[k + 1]? with
    | none => exact hj
    | some q =>
      -- a root at or before `j` is not behind the root above `j`
      refine Nat.lt_of_not_le fun hqj => ?_
      have hqt := h.le_top (List.mem_of_getElem? hn) hqj
      have hrq := lt_next h.rooted.sorted hk hn
      omega
  · rintro ⟨hrj, hend⟩
    refine eq_of_lt_next h.rooted.sorted hk htop (h.le_top (List.mem_of_getElem? hk) hrj) fun n hn => ?_
    unfold treeEnd at hend
    rw [hn] at hend
    exact Nat.lt_of_le_of_lt hle hend

theorem treeEnd_le (h : f.Rooted) (k : Nat) : f.treeEnd k ≤ f.size := by
  unfold treeEnd
  cases hn : f.roots[k + 1]? with
  | none => exact Nat.le_refl _
  | some q => exact Nat.le_of_lt (h.mem_roots.mp (List.mem_of_getElem? hn)).1

theorem Shaped.subtree_perm (h : f.Shaped g) {k r : Nat} (hk : f.roots[k]? = some r) :
    (f.subtree r).Perm (List.range' r (f.treeEnd k - r)) := by
  have hr : r ∈ f.roots := List.mem_of_getElem? hk
  refine (List.perm_ext_iff_of_nodup (subtree_spec h.linked (h.rooted.mem_roots.mp hr).1).1
    List.nodup_range').mpr fun (j : Nat) => ?_
  have hend := treeEnd_le h.rooted k
  rw [h.linked.mem_subtree_root h.rooted hr, List.mem_range'_1]
  constructor
  · rintro ⟨hj, ht⟩
    have hin := (h.top_eq_iff hk hj).mp ht
    omega
  · rintro ⟨hle, hlt⟩
    have hj : j < f.treeEnd k := by omega
    have hsize : j < f.size := Nat.lt_of_lt_of_le hj hend
    exact ⟨hsize, (h.top_eq_iff hk hsize).mpr ⟨hle, hj⟩⟩

theorem Shaped.existsUnique_root (h : f.Shaped g) {i : Nat} (hi : i < f.size) :
    ∃! r, r ∈ f.roots ∧ i ∈ f.subtree r := by
  have htop := (h.top_mem_roots hi).1
  refine ⟨f.top i, ⟨htop, (h.linked.mem_subtree_root h.rooted htop).mpr ⟨hi, rfl⟩⟩, ?_⟩
  rintro r ⟨hr, hm⟩
  exact ((h.linked.mem_subtree_root h.rooted hr).mp hm).2.symm

/-! ## Nodes -/

theorem Shaped.root_node (h : f.Shaped g) {i : Nat} (hi : i ∈ f.roots) :
    ∃ m, f.node? i = some m ∧ m.kind = .root ∧ m.parent = none := by
  obtain ⟨c, _, hl⟩ := h.labelled.root hi
  obtain ⟨m, hm, hml⟩ := Option.map_eq_some_iff.mp hl
  have hp := (h.rooted.mem_roots.mp hi).2
  rw [parent?, hm, Option.bind_some] at hp
  exact ⟨m, hm, congrArg (·.kind) hml, hp⟩

/-- A nested class lists the classes that enclose it, and its parent is one of them. -/
theorem Shaped.enclosing_parent (h : f.Shaped g) {i : Nat} {m : Node} (hm : f.node? i = some m)
    (hk : m.kind ≠ .root) (hl : m.kind ≠ .lambda) :
    ∃ p n, m.parent = some p ∧ f.node? p = some n ∧ n.qualifiedName ∈ m.enclosingClasses := by
  have ha := className?_iff_node?.mpr ⟨m, hm, hl, rfl⟩
  have hlabel : f.label? i = some m.label := by rw [label?, hm]; rfl
  have hparent : f.parent? i = m.parent := by rw [parent?, hm]; rfl
  cases hp : f.parent? i with
  | none =>
    obtain ⟨n, hn, hroot, _⟩ := h.root_node (h.rooted.mem_roots.mpr ⟨lt_size_of_className? ha, hp⟩)
    rw [hm] at hn
    cases hn
    exact absurd hroot hk
  | some p =>
    obtain ⟨e, he, hb⟩ := h.breadth.enclosed ha hp
    obtain ⟨n, hn, _, rfl⟩ := className?_iff_node?.mp he
    obtain ⟨_, r, c, hr, _, hmat⟩ := h.labelled.inner ha hp
    refine ⟨p, n, by rw [← hparent, hp], hn, ?_⟩
    rw [hlabel] at hmat
    have hencl : m.enclosingClasses = g.index.enclosingOf r.inner :=
      (congrArg (·.enclosingClasses) (Option.some.inj hmat)).trans (g.enclosingClasses_materialize r c)
    have hinner : r.inner = m.qualifiedName := by simpa using List.find?_some hr
    rw [hencl, hinner, NestingIndex.mem_enclosingOf]
    exact (Ground.mem_below_iff.mp hb).2

end
end Forest

theorem Outcome.Grown.wellFormed {g : Ground} {sites : List CallSite} {visits : List String} {o : Outcome}
    (h : o.Grown g sites visits) : o.forest.WellFormed where
  roots_sorted := h.settled.shaped.rooted.sorted
  root := h.settled.shaped.root_node
  parented := by
    intro i hi hr
    cases hp : o.forest.parent? i with
    | none => exact absurd (h.settled.shaped.rooted.mem_roots.mpr ⟨hi, hp⟩) hr
    | some p => exact ⟨p, rfl⟩
  mem_children := h.settled.shaped.linked.mem_children.symm
  child := by
    intro i p hi
    have hlinked := h.settled.shaped.linked
    have hnodup : (o.forest.children p).Nodup := (hlinked.sorted p).imp fun hlt => Nat.ne_of_lt hlt
    exact ⟨List.count_eq_one_of_mem hnodup hi, hlinked.parent_lt (hlinked.mem_children.mp hi)⟩
  tree := h.settled.shaped.subtree_perm
  one_tree := h.settled.shaped.existsUnique_root
  found := h.settled.shaped.named.find?_iff.trans Forest.className?_iff_node?
  enclosed := h.settled.shaped.enclosing_parent
  lambda := by
    intro i m hm hk
    obtain ⟨att, hc, _⟩ := h.lambdas
    have hnone : o.forest.className? i = none := by
      cases hc : o.forest.className? i with
      | none => rfl
      | some a =>
        obtain ⟨n, hn, hnk, _⟩ := Forest.className?_iff_node?.mp hc
        rw [hm] at hn
        cases hn
        exact absurd hk hnk
    have hchildren := Forest.children_of_lambda h.settled.shaped hc hnone
    unfold Forest.children at hchildren
    rw [hm] at hchildren
    exact hchildren

/-- Every run with valid settings has an outcome with a well-formed forest, whatever was registered
and whichever call sites come with it. -/
theorem run_wellFormed {σ : Type} (us : List ClassUnit) (settings : Settings) (p : Policy σ) (n : Naming σ)
    (sites : List CallSite) (hv : settings.validate = .ok ()) :
    ∃ o n', (Registry.ofUnits us).run settings p n sites = .ok (o, n') ∧ o.forest.WellFormed := by
  obtain ⟨o, n', visits, hrun, h⟩ := run_grown us settings p n sites hv
  exact ⟨o, n', hrun, h.wellFormed⟩

/-- Two classes at the top that list the same nested class. -/
def sharingUnits : List ClassUnit :=
  [listing "app/A" "app/N", listing "app/B" "app/N", .loaded { name := "app/N", own := true }]

/-- A bad call site of the first one, whose tree is taken back, and a lambda of the nested class. -/
def sharingSites : List CallSite :=
  [⟨"app/A", "app/A", "run", "()V", 0, "java/lang/Runnable", "run", "()V"⟩,
   ⟨"app/N", "java/lang/System", "gc", "()V", 6, "java/lang/Runnable", "run", "()V"⟩]

theorem run_wellFormed_sharingUnits : ∃ o n',
    (Registry.ofUnits sharingUnits).run {} (.keep Unit) ⟨(), {}⟩ sharingSites = .ok (o, n') ∧
      o.forest.WellFormed :=
  run_wellFormed sharingUnits {} (.keep Unit) ⟨(), {}⟩ sharingSites rfl

end ClassNest
