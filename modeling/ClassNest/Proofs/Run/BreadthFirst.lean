import ClassNest.Proofs.Forest.Walks
import ClassNest.Proofs.Run.Outcome

/-!
# Placement, breadth first

Where the classes of an outcome stand, in terms of the nesting index alone. The root above a node is
the last root that is not behind it (`le_top`), so later nodes have later roots; within one tree
later nodes are at least as deep (`ancestors_length_mono`). A step of the nesting leads to a class
whose parent is not behind the class that the step starts from. So no chain from an earlier root
reaches a class, and none from its own root is shorter than its depth (`Chain.bound`).
-/
namespace ClassNest

theorem Ground.mem_below {g : Ground} (hn : g.nested = true) {e a : String} :
    a ∈ g.below e ↔ a ∈ g.index.nestedOf e := by
  unfold below
  rw [if_pos hn, NestingIndex.mem_childrenOf]

namespace Forest

/-- A chain of `k` nesting steps from `start` to a class, through classes that have a node. -/
inductive Chain (ix : NestingIndex) (f : Forest) (start : String) : Nat → String → Prop
  | nil (h : (f.find? start).isSome = true) : Chain ix f start 0 start
  | step {k : Nat} {e a : String} (hc : Chain ix f start k e) (hn : a ∈ ix.nestedOf e)
      (h : (f.find? a).isSome = true) : Chain ix f start (k + 1) a

/-! ## Roots and depths -/

section
variable {g : Ground} {f : Forest}

theorem Shaped.top_mem_roots (h : f.Shaped g) {i : Nat} (hi : i < f.size) :
    f.top i ∈ f.roots ∧ f.top i ≤ i :=
  h.linked.top_mem_roots h.rooted hi

/-- No root stands between a node and the root above it. -/
theorem Shaped.le_top (h : f.Shaped g) {r : Nat} (hr : r ∈ f.roots) {i : Nat} (hle : r ≤ i) :
    r ≤ f.top i := by
  induction i using Nat.strongRecOn with
  | ind i ih =>
    cases hp : f.parent? i with
    | none => rw [top_of_root hp]; exact hle
    | some p =>
      rw [top_of_parent h.linked hp]
      exact ih p (h.linked.parent_lt hp) (h.breadth.roots_le hr hle hp)

theorem Shaped.top_mono (h : f.Shaped g) {i j : Nat} (hi : i < f.size) (hle : i ≤ j) :
    f.top i ≤ f.top j := by
  obtain ⟨hm, hti⟩ := h.top_mem_roots hi
  exact h.le_top hm (Nat.le_trans hti hle)

/-- Of two classes in one tree the later one is at least as deep. -/
theorem Shaped.ancestors_length_mono (h : f.Shaped g) {i j : Nat} {a b : String}
    (ha : f.className? i = some a)
    (hb : f.className? j = some b) (hle : i ≤ j) (ht : f.top i = f.top j) :
    (f.ancestors i).length ≤ (f.ancestors j).length := by
  induction j using Nat.strongRecOn generalizing i a b with
  | ind j ih =>
    cases hp : f.parent? i with
    | none => rw [ancestors_of_root hp]; exact Nat.zero_le _
    | some p =>
      cases hq : f.parent? j with
      | none =>
        -- `j` is a root and so the root above `i`, which comes before `i`
        have hlt := h.linked.parent_lt hp
        have hpt := (h.top_mem_roots (Nat.lt_trans hlt (lt_size_of_className? ha))).2
        rw [top_of_root hq, top_of_parent h.linked hp] at ht
        omega
      | some q =>
        obtain ⟨e, he, _⟩ := h.breadth.enclosed ha hp
        obtain ⟨d, hd, _⟩ := h.breadth.enclosed hb hq
        have hpq : p ≤ q := h.breadth.mono ha hb hp hq hle
        rw [top_of_parent h.linked hp, top_of_parent h.linked hq] at ht
        rw [ancestors_of_parent h.linked hp, ancestors_of_parent h.linked hq, List.length_cons,
          List.length_cons]
        exact Nat.succ_le_succ (ih q (h.linked.parent_lt hq) he hd hpq ht)

/-! ## Chains -/

/-- A class that is nested in one with a node has its parent there or before. -/
theorem Shaped.parent_le (h : f.Shaped g) (hg : g.Sound) {i j : Nat} {e a : String}
    (he : f.className? i = some e)
    (ha : f.className? j = some a) (hb : a ∈ g.below e) : ∃ p, f.parent? j = some p ∧ p ≤ i := by
  cases hp : f.parent? j with
  | none =>
    obtain ⟨c, hc, hname⟩ := h.labelled.root_class (h.rooted.mem_roots.mpr ⟨lt_size_of_className? ha, hp⟩)
    rw [hname] at ha
    cases ha
    exact absurd hb (hg.not_mem_below hc e)
  | some p => exact ⟨p, rfl, Nat.le_of_not_lt fun hlt => h.breadth.least ha hp he hlt hb⟩

theorem Chain.bound (h : f.Shaped g) (hg : g.Sound) (hn : g.nested = true) {root a : String} {k r : Nat}
    (hr : r ∈ f.roots) (hroot : f.className? r = some root) (hc : Chain g.index f root k a) :
    ∀ {j : Nat}, f.className? j = some a → f.top j ≤ r ∧ (f.top j = r → (f.ancestors j).length ≤ k) := by
  induction hc with
  | nil _ =>
    intro j hj
    have hp := (h.rooted.mem_roots.mp hr).2
    rw [h.named.eq_of_className? hj hroot, top_of_root hp, ancestors_of_root hp]
    exact ⟨Nat.le_refl r, fun _ => Nat.le_refl 0⟩
  | @step k e a hc hstep _ ih =>
    intro j hj
    obtain ⟨i, hi⟩ : ∃ i, f.className? i = some e := by
      have hsome : (f.find? e).isSome = true := by cases hc <;> assumption
      obtain ⟨i, hi⟩ := Option.isSome_iff_exists.mp hsome
      exact ⟨i, h.named.find?_iff.mp hi⟩
    obtain ⟨hle, hdepth⟩ := ih hi
    obtain ⟨p, hp, hpi⟩ := h.parent_le hg hi hj ((Ground.mem_below hn).mpr hstep)
    obtain ⟨d, hd, _⟩ := h.breadth.enclosed hj hp
    have hmono := h.top_mono (lt_size_of_className? hd) hpi
    rw [top_of_parent h.linked hp, ancestors_of_parent h.linked hp, List.length_cons]
    refine ⟨Nat.le_trans hmono hle, fun ht => Nat.succ_le_succ ?_⟩
    -- the class before is in the same tree, and the parent is not deeper than it
    have hti : f.top i = r := Nat.le_antisymm hle (ht ▸ hmono)
    exact Nat.le_trans (h.ancestors_length_mono hd hi hpi (ht.trans hti.symm)) (hdepth hti)

/-- The way down the tree is a chain. -/
theorem Shaped.chain (h : f.Shaped g) (hn : g.nested = true) {root : String} {i : Nat} {a : String}
    (ha : f.className? i = some a) (hroot : f.className? (f.top i) = some root) :
    Chain g.index f root (f.ancestors i).length a := by
  induction i using Nat.strongRecOn generalizing a with
  | ind i ih =>
    have hfound : (f.find? a).isSome = true := by rw [h.named.find?_iff.mpr ha]; rfl
    cases hp : f.parent? i with
    | none =>
      rw [top_of_root hp, ha] at hroot
      cases hroot
      rw [ancestors_of_root hp]
      exact .nil hfound
    | some p =>
      obtain ⟨e, he, hb⟩ := h.breadth.enclosed ha hp
      rw [top_of_parent h.linked hp] at hroot
      rw [ancestors_of_parent h.linked hp]
      exact .step (ih p (h.linked.parent_lt hp) he hroot) ((Ground.mem_below hn).mp hb) hfound

end

/-! ## Placement -/

/-- The classes stand where a breadth-first walk along the index puts them. -/
structure Placed (ix : NestingIndex) (f : Forest) : Prop where
  /-- a nested class hangs on the first of the nodes of the classes that enclose it -/
  parent : ∀ {i : NodeId} {m : Node}, f.node? i = some m → m.kind ≠ .root → m.kind ≠ .lambda →
    ∃ p e, f.parent? i = some p ∧ e ∈ ix.enclosingOf m.qualifiedName ∧ f.find? e = some p ∧
      ∀ e' ∈ ix.enclosingOf m.qualifiedName, ∀ q, f.find? e' = some q → p ≤ q
  /-- its root is the first from which a chain leads to it, and its depth is the length of the
  shortest one -/
  root : ∀ {a : String} {i : NodeId}, f.find? a = some i →
    ∃ before r after start, f.roots = before ++ r :: after ∧ f.find? start = some r ∧
      f.rootOf? a = some r ∧ Chain ix f start (f.ancestors i).length a ∧
      (∀ k, Chain ix f start k a → (f.ancestors i).length ≤ k) ∧
      ∀ s ∈ before, ∃ b, f.find? b = some s ∧ ∀ k, ¬ Chain ix f b k a
  /-- the classes that are left out are those of which no encloser has a node -/
  unattached : f.unattached =
    (ix.records.map (·.inner)).filter fun a => (ix.enclosingOf a).all fun e => (f.find? e).isNone
  nodup : f.unattached.Nodup

section
variable {g : Ground} {f : Forest}

theorem Shaped.parent_least (h : f.Shaped g) (hn : g.nested = true) {i : Nat} {m : Node}
    (hm : f.node? i = some m) (hk : m.kind ≠ .root) (hl : m.kind ≠ .lambda) :
    ∃ p e, f.parent? i = some p ∧ e ∈ g.index.enclosingOf m.qualifiedName ∧ f.find? e = some p ∧
      ∀ e' ∈ g.index.enclosingOf m.qualifiedName, ∀ q, f.find? e' = some q → p ≤ q := by
  have ha := className?_iff_node?.mpr ⟨m, hm, hl, rfl⟩
  have hbelow : ∀ {e : String}, m.qualifiedName ∈ g.below e ↔
    e ∈ g.index.enclosingOf m.qualifiedName := by
    intro e
    rw [Ground.mem_below hn, NestingIndex.mem_nestedOf, NestingIndex.mem_enclosingOf]
  cases hp : f.parent? i with
  | none =>
    obtain ⟨c, _, hc⟩ := h.labelled.root (h.rooted.mem_roots.mpr ⟨lt_size_of_className? ha, hp⟩)
    rw [label?, hm, Option.map_some, Option.some.injEq] at hc
    exact absurd (congrArg (·.kind) hc) hk
  | some p =>
    obtain ⟨e, he, hb⟩ := h.breadth.enclosed ha hp
    refine ⟨p, e, rfl, hbelow.mp hb, h.named.find?_iff.mpr he,
      fun e' he' q hq => Nat.le_of_not_lt fun hlt => ?_⟩
    exact h.breadth.least ha hp (h.named.find?_iff.mp hq) hlt (hbelow.mpr he')

theorem Shaped.first_root (h : f.Shaped g) (hg : g.Sound) (hn : g.nested = true) {a : String} {i : Nat}
    (hi : f.find? a = some i) :
    ∃ before r after start, f.roots = before ++ r :: after ∧ f.find? start = some r ∧
      f.rootOf? a = some r ∧ Chain g.index f start (f.ancestors i).length a ∧
      (∀ k, Chain g.index f start k a → (f.ancestors i).length ≤ k) ∧
      ∀ s ∈ before, ∃ b, f.find? b = some s ∧ ∀ k, ¬ Chain g.index f b k a := by
  have ha := h.named.find?_iff.mp hi
  obtain ⟨htop, _⟩ := h.top_mem_roots (lt_size_of_className? ha)
  obtain ⟨c, _, hc⟩ := h.labelled.root_class htop
  obtain ⟨before, after, hroots⟩ := List.append_of_mem htop
  refine ⟨before, f.top i, after, c.name, hroots, h.named.find?_iff.mpr hc, rootOf?_eq hi,
    h.chain hn ha hc, fun k hk => (hk.bound h hg hn htop hc ha).2 rfl, fun s hs => ?_⟩
  have hmem : s ∈ f.roots := by rw [hroots]; exact List.mem_append_left _ hs
  have hlt : s < f.top i := by
    have hsorted := h.rooted.sorted
    rw [hroots, List.pairwise_append] at hsorted
    exact hsorted.2.2 s hs (f.top i) (by simp)
  obtain ⟨d, _, hd⟩ := h.labelled.root_class hmem
  exact ⟨d.name, h.named.find?_iff.mpr hd, fun k hk =>
    Nat.not_le_of_lt hlt (hk.bound h hg hn hmem hd ha).1⟩

end
end Forest

namespace Outcome.Grown
variable {g : Ground} {sites : List CallSite} {visits : List String} {o : Outcome}

/-- A nested class was visited if and only if one of the classes that enclose it has a node. -/
theorem visited_iff (h : o.Grown g sites visits) (hn : g.nested = true) {a : String}
    (ha : a ∈ g.index.records.map (·.inner)) :
    a ∈ visits ↔ ∃ e ∈ g.index.enclosingOf a, (o.forest.find? e).isSome = true := by
  have hnamed := h.settled.shaped.named
  constructor
  · intro hv
    rcases h.settled.tallied.origin hv with ⟨r, hr, hra⟩ | ⟨i, e, he, hb⟩
    · obtain ⟨c, hc, hname⟩ := h.settled.shaped.labelled.root_class hr
      have hac : a = c.name := Option.some.inj (hra.symm.trans hname)
      have hnested := (Ground.mem_rootClasses.mp hc).2.2 hn
      rw [← hac, NestingIndex.isNested_iff.mpr ha] at hnested
      cases hnested
    · refine ⟨e, ?_, by rw [hnamed.find?_iff.mpr he]; rfl⟩
      rw [NestingIndex.mem_enclosingOf, ← NestingIndex.mem_nestedOf, ← Ground.mem_below hn]
      exact hb
  · rintro ⟨e, he, hsome⟩
    obtain ⟨i, hi⟩ := Option.isSome_iff_exists.mp hsome
    refine h.settled.closed (hnamed.find?_iff.mp hi) a ?_
    rw [Ground.mem_below hn, NestingIndex.mem_nestedOf, ← NestingIndex.mem_enclosingOf]
    exact he

theorem placed (h : o.Grown g sites visits) (hg : g.Sound) (hn : g.nested = true) :
    o.forest.Placed g.index where
  parent := h.settled.shaped.parent_least hn
  root := h.settled.shaped.first_root hg hn
  unattached := by
    rw [h.unattached]
    apply List.filter_congr
    intro a ha
    rw [Bool.eq_iff_iff]
    have hiff := not_congr (h.visited_iff hn ha)
    simp only [not_exists, not_and] at hiff
    simp [hiff]
  nodup := by
    rw [h.unattached]
    exact hg.index.records.sublist List.filter_sublist

end Outcome.Grown

/-- Every run with nested classes has an outcome whose classes are placed breadth first, and each of
its trees comes to an end by itself, on whatever nesting, unless it finds the arena full. -/
theorem run_placed {σ : Type} (us : List ClassUnit) (settings : Settings) (p : Policy σ) (n : Naming σ)
    (sites : List CallSite) (hv : settings.validate = .ok ()) (hn : settings.nested = true) :
    (∃ o n', (Registry.ofUnits us).run settings p n sites = .ok (o, n') ∧
      o.forest.Placed ((Registry.ofUnits us).normalize p settings.rename n).index) ∧
    ∀ (g : Ground) (s : Growth) (c : ClassFile), Growth.Heads g s c (s.grow g c) := by
  obtain ⟨o, n', visits, hrun, h⟩ := run_grown us settings p n sites hv
  have hplaced := h.placed (sound_ground settings p n us) hn
  have hix : (Registry.ofUnits us).indexFor settings p n =
      ((Registry.ofUnits us).normalize p settings.rename n).index := if_pos hn
  refine ⟨⟨o, n', hrun, ?_⟩, Growth.grow_heads⟩
  rw [← hix]
  exact hplaced

/-- A class that lists one other as its member. -/
def listing (outer inner : String) : ClassUnit :=
  .loaded {
    name := outer
    own := true
    pool := ⟨[.className outer, .className inner]⟩
    innerClasses := [⟨2, 1, 0, .empty⟩] }

/-- Two nested classes that enclose each other, below a class at the top. -/
def cyclicUnits : List ClassUnit :=
  [listing "app/Main" "app/Main$A", listing "app/Main$A" "app/Main$B", listing "app/Main$B" "app/Main$A"]

theorem run_placed_cyclicUnits : ∃ o n',
    (Registry.ofUnits cyclicUnits).run {} (.keep Unit) ⟨(), {}⟩ [] = .ok (o, n') ∧
      o.forest.Placed ((Registry.ofUnits cyclicUnits).normalize (.keep Unit) false ⟨(), {}⟩).index :=
  (run_placed cyclicUnits {} (.keep Unit) ⟨(), {}⟩ [] rfl rfl).1

end ClassNest
