import ClassNest.Proofs.Forest.Links
import Mathlib.Data.List.Perm.Subperm

/-!
# Walks up and down

In a linked forest the bound on a walk never cuts it short. A walk up goes from parent to parent
(`ancestors_of_parent`), and a walk down meets exactly the nodes of the subtree, each of them once
(`subtree_spec`).
-/
namespace ClassNest.Forest

variable {f : Forest}

/-! ## Up -/

theorem ancestorsWithin_stable (h : f.Linked) :
    ∀ (i n m : Nat), i ≤ n → i ≤ m → f.ancestorsWithin n i = f.ancestorsWithin m i := by
  intro i
  induction i using Nat.strongRecOn with
  | ind i ih =>
    intro n m hn hm
    cases hp : f.parent? i with
    | none => cases n <;> cases m <;> simp [ancestorsWithin, hp]
    | some p =>
      have hlt := h.parent_lt hp
      cases n with
      | zero => omega
      | succ n =>
        cases m with
        | zero => omega
        | succ m =>
          simp only [ancestorsWithin, hp]
          rw [ih p hlt n m (by omega) (by omega)]

theorem ancestors_of_parent (h : f.Linked) {i p : Nat} (hp : f.parent? i = some p) :
    f.ancestors i = p :: f.ancestors p := by
  have hlt := h.parent_lt hp
  have hi : i < f.size := lt_size_of_parent? hp
  unfold ancestors
  cases hs : f.size with
  | zero => omega
  | succ n =>
    simp only [ancestorsWithin, hp]
    rw [ancestorsWithin_stable h p n (n + 1) (by omega) (by omega)]
    rfl

theorem ancestors_of_root {i : Nat} (hp : f.parent? i = none) : f.ancestors i = [] := by
  unfold ancestors
  cases f.size <;> simp [ancestorsWithin, hp]

/-- The root above `i`, or `i` itself if it is one. -/
def top (f : Forest) (i : Nat) : Nat := (f.ancestors i).getLast?.getD i

theorem top_of_root {i : Nat} (hp : f.parent? i = none) : f.top i = i := by
  unfold top; rw [ancestors_of_root hp]; rfl

theorem top_of_parent (h : f.Linked) {i p : Nat} (hp : f.parent? i = some p) : f.top i = f.top p := by
  unfold top
  rw [ancestors_of_parent h hp, List.getLast?_cons]
  rfl

theorem Linked.top_mem_roots (h : f.Linked) (hroots : f.Rooted) {i : Nat} (hi : i < f.size) :
    f.top i ∈ f.roots ∧ f.top i ≤ i := by
  induction i using Nat.strongRecOn with
  | ind i ih =>
    cases hp : f.parent? i with
    | none =>
      rw [top_of_root hp]
      exact ⟨hroots.mem_roots.mpr ⟨hi, hp⟩, Nat.le_refl i⟩
    | some p =>
      have hlt := h.parent_lt hp
      obtain ⟨hm, hle⟩ := ih p hlt (Nat.lt_trans hlt hi)
      rw [top_of_parent h hp]
      exact ⟨hm, Nat.le_trans hle (Nat.le_of_lt hlt)⟩

theorem rootOf?_eq {name : String} {i : Nat} (h : f.find? name = some i) :
    f.rootOf? name = some (f.top i) := by
  rw [rootOf?, h]; rfl

theorem isLambda_of_label? {i : Nat} {l : Node} (h : f.label? i = some l) :
    f.isLambda i = l.isLambda := by
  obtain ⟨n, hn, rfl⟩ := Option.map_eq_some_iff.mp h
  unfold isLambda
  rw [hn]; rfl

theorem owningClass_of_lambda (h : f.Linked) {i p : Nat} {l : Node} {name : String}
    (hl : f.label? i = some l)
    (hlam : l.isLambda = true) (hp : f.parent? i = some p) (hc : f.className? p = some name) :
      f.owningClass i = p := by
  obtain ⟨m, hm, hmc, _⟩ := className?_eq_some.mp hc
  have h1 : f.isLambda i = true := by rw [isLambda_of_label? hl, hlam]
  have h2 : f.isLambda p = false := by rw [isLambda_of_label? hm, hmc]
  unfold owningClass
  rw [ancestors_of_parent h hp]
  simp [h1, h2]

/-! ## Down -/

/-- `j` lies at or below `b`. -/
inductive Within (f : Forest) (b : Nat) : Nat → Prop
  | self : Within f b b
  | child {p j : Nat} : Within f b p → f.parent? j = some p → Within f b j

theorem Within.le (h : f.Linked) {b j : Nat} (hw : f.Within b j) : b ≤ j := by
  induction hw with
  | self => exact Nat.le_refl b
  | child _ hp ih => have := h.parent_lt hp; omega

theorem Within.lt_size {b j : Nat} (hb : b < f.size) (hw : f.Within b j) : j < f.size := by
  cases hw with
  | self => exact hb
  | child _ hp => exact lt_size_of_parent? hp

theorem Within.top_eq (h : f.Linked) {b j : Nat} (hw : f.Within b j) : f.top j = f.top b := by
  induction hw with
  | self => rfl
  | child _ hp ih => rw [top_of_parent h hp, ih]

theorem within_top (h : f.Linked) (j : Nat) : f.Within (f.top j) j := by
  induction j using Nat.strongRecOn with
  | ind j ih =>
    cases hp : f.parent? j with
    | none => rw [top_of_root hp]; exact .self
    | some p =>
      rw [top_of_parent h hp]
      exact .child (ih p (h.parent_lt hp)) hp

/-- A walk down from `b` in the middle: `seen` has been passed, and `stack` comes next. -/
structure Walk (f : Forest) (b : Nat) (seen stack : List Nat) : Prop where
  nodup : (seen ++ stack).Nodup
  within : ∀ j ∈ seen ++ stack, f.Within b j
  above : ∀ j ∈ seen ++ stack, j = b ∨ ∃ p ∈ seen, f.parent? j = some p
  closed : ∀ p ∈ seen, ∀ j : Nat, f.parent? j = some p → j ∈ seen ++ stack
  start : b ∈ seen ++ stack

theorem Walk.init (f : Forest) (b : Nat) : f.Walk b [] [b] where
  nodup := by simp
  within := by intro j hj; rw [List.nil_append, List.mem_singleton] at hj; exact hj ▸ .self
  above := by intro j hj; rw [List.nil_append, List.mem_singleton] at hj; exact .inl hj
  closed := by intro p hp; cases hp
  start := by simp

/-- The children of the node that is passed are new: their parent has not been passed before. -/
theorem Walk.children_fresh (h : f.Linked) {b i : Nat} {seen stack : List Nat}
    (w : f.Walk b seen (i :: stack))
    {j : Nat} (hj : j ∈ f.children i) : j ∉ seen ++ i :: stack := by
  intro hm
  have hp := h.mem_children.mp hj
  rcases w.above j hm with rfl | ⟨p, hps, hp'⟩
  · have hle := (w.within i (by simp)).le h
    have hlt := h.parent_lt hp
    omega
  · rw [hp] at hp'
    cases hp'
    exact (List.nodup_append.mp w.nodup).2.2 i hps i (by simp) rfl

theorem Walk.step (h : f.Linked) {b i : Nat} {seen stack : List Nat} (w : f.Walk b seen (i :: stack)) :
    f.Walk b (seen ++ [i]) (f.children i ++ stack) := by
  have hfresh := fun j hj => w.children_fresh h (j := j) hj
  have hmem : ∀ j, j ∈ (seen ++ [i]) ++ (f.children i ++ stack) ↔
    j ∈ seen ++ i :: stack ∨ j ∈ f.children i := by
    intro j
    simp only [List.mem_append, List.mem_cons, List.not_mem_nil, or_false]
    grind
  refine ⟨?_, ?_, ?_, ?_, (hmem b).mpr (.inl w.start)⟩
  · have hperm : ((seen ++ [i]) ++ (f.children i ++ stack)).Perm (f.children i ++ (seen ++ i :: stack)) := by
      have h1 : (seen ++ [i]) ++ (f.children i ++ stack) = (seen ++ [i]) ++ f.children i ++ stack := by simp
      have h2 : f.children i ++ (seen ++ i :: stack) = f.children i ++ (seen ++ [i]) ++ stack := by simp
      rw [h1, h2]
      exact List.perm_append_comm.append_right stack
    rw [hperm.nodup_iff, List.nodup_append]
    refine ⟨(h.sorted i).imp fun hlt => Nat.ne_of_lt hlt, w.nodup, ?_⟩
    intro a ha b hb hab
    exact hfresh a ha (hab ▸ hb)
  · intro j hj
    rcases (hmem j).mp hj with hj | hj
    · exact w.within j hj
    · exact .child (w.within i (by simp)) (h.mem_children.mp hj)
  · intro j hj
    rcases (hmem j).mp hj with hj | hj
    · rcases w.above j hj with rfl | ⟨p, hp, hpar⟩
      · exact .inl rfl
      · exact .inr ⟨p, List.mem_append_left _ hp, hpar⟩
    · exact .inr ⟨i, by simp, h.mem_children.mp hj⟩
  · intro p hp j hj
    rw [hmem]
    rcases List.mem_append.mp hp with hp | hp
    · exact .inl (w.closed p hp j hj)
    · rw [List.mem_singleton] at hp
      exact .inr (h.mem_children.mpr (hp ▸ hj))

theorem Walk.length_le {b : Nat} (hb : b < f.size) {seen stack : List Nat} (w : f.Walk b seen stack) :
    seen.length + stack.length ≤ f.size := by
  have hsub : seen ++ stack ⊆ List.range f.size := by
    intro j hj; rw [List.mem_range]; exact (w.within j hj).lt_size hb
  have hle := (List.subperm_of_subset w.nodup hsub).length_le
  rwa [List.length_append, List.length_range] at hle

/-- The walk is over before its steps run out: no node comes up twice. -/
theorem Walk.run (h : f.Linked) {b : Nat} (hb : b < f.size) : ∀ (steps : Nat) {seen stack : List Nat},
    f.Walk b seen stack → f.size ≤ seen.length + steps → f.Walk b (seen ++ f.subtreeWithin steps stack) []
  | 0, seen, [], w, _ => by simpa [subtreeWithin] using w
  | 0, seen, i :: stack, w, hs => by
    have hle := w.length_le hb
    rw [List.length_cons] at hle
    omega
  | steps + 1, seen, [], w, _ => by simpa [subtreeWithin] using w
  | steps + 1, seen, i :: stack, w, hs => by
    have hrun := Walk.run h hb steps (w.step h) (by rw [List.length_append, List.length_singleton]; omega)
    rw [List.append_assoc, List.singleton_append] at hrun
    exact hrun

theorem subtree_spec (h : f.Linked) {b : Nat} (hb : b < f.size) :
    (f.subtree b).Nodup ∧ ∀ j, j ∈ f.subtree b ↔ f.Within b j := by
  have w := Walk.run h hb f.size (Walk.init f b) (by simp)
  rw [List.nil_append] at w
  have hend : f.subtree b ++ [] = f.subtree b := List.append_nil _
  refine ⟨hend ▸ w.nodup, fun j => ⟨fun hj => w.within j (by rw [List.append_nil]; exact hj), ?_⟩⟩
  intro hw
  induction hw with
  | self => exact hend ▸ w.start
  | child _ hp ih => exact hend ▸ w.closed _ ih _ hp

theorem Linked.mem_subtree_root (h : f.Linked) (hroots : f.Rooted) {r j : Nat} (hr : r ∈ f.roots) :
    j ∈ f.subtree r ↔ j < f.size ∧ f.top j = r := by
  obtain ⟨hlt, hp⟩ := hroots.mem_roots.mp hr
  rw [(subtree_spec h hlt).2]
  constructor
  · intro hw
    exact ⟨hw.lt_size hlt, by rw [hw.top_eq h, top_of_root hp]⟩
  · rintro ⟨_, rfl⟩
    exact within_top h j

end ClassNest.Forest
