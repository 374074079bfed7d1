import ClassNest.Forest.History
import ClassNest.Proofs.Forest.Rollback
import ClassNest.Proofs.Forest.Walks

/-!
# Every history of a forest

Whatever is done with a forest, in whatever order and with however stale a mark, its links stay in order. The walks
over them need no bound then: `Climbs`, `FindsOwner` and `Traverses` are the loops without one, and every history
leaves a forest on which they end, inside the arena, with what the bounded walks answer (`run_intact`).

The list of roots is more delicate. It stays exact as long as no stale mark is gone back to, and the marks for which
it stays exact are just those that fit the forest (`run_roots_exact`). A stale mark need not fit it: it can leave a
root that stands outside the arena (`roots_outside_arena`).
-/
namespace ClassNest.Forest

variable {f : Forest} {i : Nat}

/-! ## Walks without a bound -/

/-- The climb from a node, to its end: the nodes above it, nearest first. -/
inductive Climbs (f : Forest) : NodeId → List NodeId → Prop
  | top {i : NodeId} (hi : i < f.size) (hp : f.parent? i = none) : Climbs f i []
  | up {i p : NodeId} {path : List NodeId} (hi : i < f.size) (hp : f.parent? i = some p)
      (rest : Climbs f p path) : Climbs f i (p :: path)

/-- The search for the class at or above a node, to its end. -/
inductive FindsOwner (f : Forest) : NodeId → NodeId → Prop
  | here {i : NodeId} (hi : i < f.size) (hc : f.isLambda i = false) : FindsOwner f i i
  | top {i : NodeId} (hi : i < f.size) (hl : f.isLambda i = true) (hp : f.parent? i = none) : FindsOwner f i i
  | up {i p j : NodeId} (hi : i < f.size) (hl : f.isLambda i = true) (hp : f.parent? i = some p)
      (rest : FindsOwner f p j) : FindsOwner f i j

/-- The walk over a stack of nodes, to its end: all that it meets, in order. -/
inductive Traverses (f : Forest) : List NodeId → List NodeId → Prop
  | done : Traverses f [] []
  | visit {i : NodeId} {stack order : List NodeId} (hi : i < f.size)
      (rest : Traverses f (f.children i ++ stack) order) : Traverses f (i :: stack) (i :: order)

theorem Linked.climbs (h : f.Linked) (hi : i < f.size) : f.Climbs i (f.ancestors i) := by
  induction i using Nat.strongRecOn with
  | ind i ih =>
    cases hp : f.parent? i with
    | none =>
      rw [ancestors_of_root hp]
      exact .top hi hp
    | some p =>
      have hlt := h.parent_lt hp
      rw [ancestors_of_parent h hp]
      exact .up hi hp (ih p hlt (by omega))

theorem owningClass_of_class (hc : f.isLambda i = false) : f.owningClass i = i := by
  simp [owningClass, hc]

theorem owningClass_of_root (hp : f.parent? i = none) : f.owningClass i = i := by
  simp only [owningClass, ancestors_of_root hp]
  cases h : f.isLambda i <;> simp [h]

theorem owningClass_of_parent (h : f.Linked) {p : Nat} (hl : f.isLambda i = true) (hp : f.parent? i = some p) :
    f.owningClass i = f.owningClass p := by
  simp only [owningClass, ancestors_of_parent h hp]
  rw [List.find?_cons_of_neg (by simp [hl])]
  simp [List.getLastD_eq_getLast?, List.getLast?_cons]

theorem Linked.findsOwner (h : f.Linked) (hi : i < f.size) : f.FindsOwner i (f.owningClass i) := by
  induction i using Nat.strongRecOn with
  | ind i ih =>
    cases hl : f.isLambda i with
    | false =>
      rw [owningClass_of_class hl]
      exact .here hi hl
    | true =>
      cases hp : f.parent? i with
      | none =>
        rw [owningClass_of_root hp]
        exact .top hi hl hp
      | some p =>
        have hlt := h.parent_lt hp
        rw [owningClass_of_parent h hl hp]
        exact .up hi hl hp (ih p hlt (by omega))

/-- As long as the steps cover the nodes not passed yet, the bounded walk is the walk. -/
theorem Walk.traverses (h : f.Linked) {b : Nat} (hb : b < f.size) : ∀ (steps : Nat) {seen stack : List NodeId},
    f.Walk b seen stack → f.size ≤ seen.length + steps → f.Traverses stack (f.subtreeWithin steps stack)
  | 0, _, [], _, _ => .done
  | 0, seen, i :: stack, w, hs => by
    have hle := w.length_le hb
    rw [List.length_cons] at hle
    omega
  | _ + 1, _, [], _, _ => .done
  | steps + 1, seen, i :: stack, w, hs => by
    have hi : i < f.size := (w.within i (by simp)).lt_size hb
    exact .visit hi (Walk.traverses h hb steps (w.step h) (by rw [List.length_append, List.length_singleton]; omega))

theorem Linked.traverses (h : f.Linked) (hi : i < f.size) : f.Traverses [i] (f.subtree i) :=
  Walk.traverses h hi f.size (Walk.init f i) (by simp)

/-! ## What an operation can do -/

/-- A forest with one node more, of those that may be added. -/
inductive Grows (ok : Node → Prop) (f : Forest) : Forest → Prop
  | addRoot {n : Node} (hn : ok n) : Grows ok f (f.addRoot n)
  | graft {p : NodeId} {n : Node} (hn : ok n) (hp : p < f.size) : Grows ok f (f.graft p n)

theorem perform_attach_error_iff {p : NodeId} {n : Node} :
    (∃ fault, (f.perform (.attach p n)).answer = .error fault) ↔ f.size ≤ p ∨ capacity ≤ f.size := by
  rw [perform_attach]
  by_cases hp : p < f.size
  · by_cases hc : f.size < capacity
    · simp [hp, hc]
    · simp [hp, hc, Nat.le_of_not_lt hc]
  · simp [hp, Nat.le_of_not_lt hp]

namespace History
variable {h : History} {op : Operation} {ops : List Operation}

/-- The node that an operation adds, if it succeeds. -/
def adds? (h : History) : Operation → Option Node
  | .addRoot n => (h.forest.perform (.addRoot n.1)).answer.toOption.map fun _ => n.1
  | .attach parent n => (h.forest.perform (.attach parent n.1)).answer.toOption.map fun _ => n.1
  | .checkpoint | .rollback _ => none

/-- Everything that an operation can do which adds a node. -/
theorem step_of_adds? {n : Node} (ha : h.adds? op = some n) : n.IsBare ∧
    (h.step op = { h with forest := h.forest.addRoot n } ∨
      ∃ p < h.forest.size, h.step op = { h with forest := h.forest.graft p n }) := by
  cases op with
  | addRoot x =>
    rcases perform_addRoot_cases h.forest x.1 with ⟨_, he⟩ | ⟨_, he⟩
    · obtain rfl : x.1 = n := by simpa [adds?, he, Except.toOption] using ha
      exact ⟨x.2, .inl (by simp only [step, change, he])⟩
    · simp [adds?, he, Except.toOption] at ha
  | attach p x =>
    rcases perform_attach_grows_or_keeps h.forest p x.1 with ⟨hp, _, he⟩ | ⟨fault, _, he⟩
    · obtain rfl : x.1 = n := by simpa [adds?, he, Except.toOption] using ha
      exact ⟨x.2, .inr ⟨p, hp, by simp only [step, change, he]⟩⟩
    · simp [adds?, he, Except.toOption] at ha
  | checkpoint => cases ha
  | rollback i => cases ha

/-- Everything that an operation can do which adds none. -/
theorem step_of_adds?_eq_none (ha : h.adds? op = none) :
    h.step op = h ∨
    (op = .checkpoint ∧ h.step op = { h with marks := h.marks ++ [⟨h.forest.mark, false⟩] }) ∨
    ∃ i t, op = .rollback i ∧ h.marks[i]? = some t ∧
      h.step op = ⟨h.forest.rollback t.mark, staleFrom i h.marks⟩ := by
  cases op with
  | addRoot x =>
    rcases perform_addRoot_cases h.forest x.1 with ⟨_, he⟩ | ⟨_, he⟩
    · simp [adds?, he, Except.toOption] at ha
    · exact .inl (by simp only [step, change, he])
  | attach p x =>
    rcases perform_attach_grows_or_keeps h.forest p x.1 with ⟨_, _, he⟩ | ⟨fault, _, he⟩
    · simp [adds?, he, Except.toOption] at ha
    · exact .inl (by simp only [step, change, he])
  | checkpoint => exact .inr (.inl ⟨rfl, rfl⟩)
  | rollback i =>
    cases ht : h.marks[i]? with
    | none => exact .inl (by simp only [step, ht])
    | some t => exact .inr (.inr ⟨i, t, rfl, ht, by simp only [step, ht]⟩)

/-- Everything that an operation can do. -/
theorem step_cases (h : History) (op : Operation) :
    h.step op = h ∨
    (∃ grown, Grows Node.IsBare h.forest grown ∧ h.step op = { h with forest := grown }) ∨
    (op = .checkpoint ∧ h.step op = { h with marks := h.marks ++ [⟨h.forest.mark, false⟩] }) ∨
    ∃ i t, op = .rollback i ∧ h.marks[i]? = some t ∧
      h.step op = ⟨h.forest.rollback t.mark, staleFrom i h.marks⟩ := by
  cases ha : h.adds? op with
  | some n =>
    obtain ⟨hn, he | ⟨p, hp, he⟩⟩ := step_of_adds? ha
    · exact .inr (.inl ⟨_, .addRoot hn, he⟩)
    · exact .inr (.inl ⟨_, .graft hn hp, he⟩)
  | none =>
    rcases step_of_adds?_eq_none ha with he | hmark | hback
    · exact .inl he
    · exact .inr (.inr (.inl hmark))
    · exact .inr (.inr (.inr hback))

/-- What holds of the empty forest, and what every step keeps, holds after every history. -/
theorem run_induct {P : History → Prop} (hstart : P {}) (hstep : ∀ {h : History} (op : Operation), P h → P (h.step op))
    (ops : List Operation) : P (run ops) := by
  suffices hall : ∀ (ops : List Operation) (h : History), P h → P (ops.foldl step h) from hall ops {} hstart
  intro ops
  induction ops with
  | nil => exact fun _ hP => hP
  | cons op ops ih => exact fun h hP => ih (h.step op) (hstep op hP)

end History

/-! ## Links -/

/-- The links are in order, and names lead to their classes. -/
structure Sound (f : Forest) : Prop where
  linked : f.Linked
  names : f.NamesLead

theorem sound_empty : Sound {} := ⟨linked_empty, namesLead_empty⟩

theorem Sound.grows {g : Forest} (h : f.Sound) (hg : Grows Node.IsBare f g) : g.Sound := by
  cases hg with
  | addRoot hn => exact ⟨h.linked.addRoot hn.1 hn.2, h.names.addRoot⟩
  | graft hn hp => exact ⟨h.linked.graft hn.2 hp, h.names.graft⟩

/-- Any mark will do, also one that this forest never gave. -/
theorem Sound.rollback (h : f.Sound) (m : Mark) : (f.rollback m).Sound := by
  rw [rollback_eq_cut h.linked h.names]
  exact ⟨h.linked.cut m, h.names.cut m⟩

/-- The forests that can come up: nodes are added, the arena goes back to marks, stale or not, and the nested classes
that no tree holds are noted, in any order. -/
inductive BuiltBy (ok : Node → Prop) : Forest → Prop
  | empty : BuiltBy ok {}
  | grow {f g : Forest} (h : BuiltBy ok f) (hg : Grows ok f g) : BuiltBy ok g
  | rollback {f : Forest} (h : BuiltBy ok f) (m : Mark) : BuiltBy ok (f.rollback m)
  | note {f : Forest} (h : BuiltBy ok f) (names : List String) : BuiltBy ok { f with unattached := names }

theorem BuiltBy.namesLead {ok : Node → Prop} (h : f.BuiltBy ok) : f.NamesLead := by
  induction h with
  | empty => exact namesLead_empty
  | grow _ hg ih =>
    cases hg with
    | addRoot => exact ih.addRoot
    | graft => exact ih.graft
  | @rollback f _ m ih =>
    unfold Forest.rollback
    split
    · exact ih
    · exact ih.cut m
  | note _ names ih => exact ih

theorem Sound.step {h : History} (hs : h.forest.Sound) (op : Operation) : (h.step op).forest.Sound := by
  rcases h.step_cases op with he | ⟨grown, hg, he⟩ | ⟨_, he⟩ | ⟨i, t, _, _, he⟩
  · rw [he]; exact hs
  · rw [he]; exact hs.grows hg
  · rw [he]; exact hs
  · rw [he]; exact hs.rollback t.mark

theorem sound_run (ops : List Operation) : (History.run ops).forest.Sound :=
  History.run_induct (P := fun h => h.forest.Sound) sound_empty (fun op hs => hs.step op) ops

/-- Everything that can be relied on when the links of a forest are followed. -/
structure Intact (f : Forest) : Prop where
  parent_iff : ∀ {i p : NodeId}, f.parent? i = some p ↔ i ∈ f.children p
  parent_lt : ∀ {i p : NodeId}, f.parent? i = some p → p < i ∧ p < f.size
  child_lt : ∀ {i p : NodeId}, i ∈ f.children p → i < f.size
  sorted : ∀ p : NodeId, (f.children p).Pairwise (· < ·)
  found : ∀ {name : String} {i : NodeId}, f.find? name = some i →
    i < f.size ∧ ∃ n, f.node? i = some n ∧ n.kind ≠ .lambda ∧ n.qualifiedName = name
  climbs : ∀ {i : NodeId}, i < f.size → f.Climbs i (f.ancestors i)
  owner : ∀ {i : NodeId}, i < f.size → f.FindsOwner i (f.owningClass i)
  traverses : ∀ {i : NodeId}, i < f.size → f.Traverses [i] (f.subtree i)
  /-- the root of a class is where the climb from its node ends -/
  root : ∀ name : String, f.find? name = none ∧ f.rootOf? name = none ∨
    ∃ i path, f.find? name = some i ∧ f.Climbs i path ∧ f.rootOf? name = some (path.getLast?.getD i)

theorem Sound.intact (h : f.Sound) : f.Intact where
  parent_iff := h.linked.mem_children.symm
  parent_lt := by
    intro i p hp
    have hlt := h.linked.parent_lt hp
    exact ⟨hlt, Nat.lt_trans hlt (lt_size_of_parent? hp)⟩
  child_lt := h.linked.child_lt_size
  sorted := h.linked.sorted
  found := by
    intro name i hf
    have hc := h.names _ (mem_byName_of_find? hf)
    exact ⟨lt_size_of_className? hc, className?_iff_node?.mp hc⟩
  climbs := h.linked.climbs
  owner := h.linked.findsOwner
  traverses := h.linked.traverses
  root := by
    intro name
    unfold rootOf?
    cases hf : f.find? name with
    | none => exact .inl ⟨rfl, rfl⟩
    | some i =>
      have hi := lt_size_of_className? (h.names _ (mem_byName_of_find? hf))
      exact .inr ⟨i, f.ancestors i, rfl, h.linked.climbs hi, rfl⟩

/-- Every history leaves a forest whose links are in order and whose walks end inside the arena. A node is not
attached just if its parent is not there or there is no id left, and then nothing has changed. -/
theorem run_intact (ops : List Operation) :
    (History.run ops).forest.Intact ∧
    ∀ (parent : NodeId) (n : BareNode),
      let tried := (History.run ops).forest.perform (.attach parent n.1)
      ((∃ fault, tried.answer = .error fault) ↔
        (History.run ops).forest.size ≤ parent ∨ capacity ≤ (History.run ops).forest.size) ∧
      ∀ fault, tried.answer = .error fault →
        tried.state = (History.run ops).forest ∧ (History.run ops).step (.attach parent n) = History.run ops := by
  refine ⟨(sound_run ops).intact, fun parent n => ⟨perform_attach_error_iff, fun fault hfault => ?_⟩⟩
  rcases perform_attach_grows_or_keeps (History.run ops).forest parent n.1 with ⟨_, _, he⟩ | ⟨other, _, he⟩
  · rw [he] at hfault
    cases hfault
  · rw [he]
    exact ⟨rfl, by simp only [History.step, History.change, he]⟩

/-! ## Roots -/

namespace History
variable {h : History} {op : Operation}

theorem getElem?_staleFrom {marks : List TakenMark} {i j : Nat} : (staleFrom i marks)[j]? =
    (marks[j]?).map fun t => { t with stale := t.stale || decide (i < j) } := by
  simp [staleFrom, List.getElem?_mapIdx]

/-- A mark that is still fresh after going back to mark `i` was taken no later. -/
theorem fresh_of_staleFrom {marks : List TakenMark} {i j : Nat} {t : TakenMark}
    (ht : (staleFrom i marks)[j]? = some t) (hfresh : t.stale = false) : j ≤ i ∧ marks[j]? = some t := by
  rw [getElem?_staleFrom] at ht
  obtain ⟨s, hs, rfl⟩ := Option.map_eq_some_iff.mp ht
  simp only [Bool.or_eq_false_iff, decide_eq_false_iff_not] at hfresh
  obtain ⟨hstale, hle⟩ := hfresh
  refine ⟨by omega, ?_⟩
  rw [hs]
  simp [hle]

/-- The roots are exact, and the marks that are not stale lie in the forest, in the order in which they were taken. -/
structure Orderly (h : History) : Prop where
  sound : h.forest.Sound
  rooted : h.forest.Rooted
  lies : ∀ {i : Nat} {t : TakenMark}, h.marks[i]? = some t → t.stale = false → t.mark.LiesIn h.forest
  mono : ∀ {i j : Nat} {s t : TakenMark}, i ≤ j → h.marks[i]? = some s → h.marks[j]? = some t →
    s.stale = false → t.stale = false → s.mark.nodes ≤ t.mark.nodes ∧ s.mark.roots ≤ t.mark.roots

theorem orderly_empty : Orderly {} := ⟨sound_empty, rooted_empty, nofun, nofun⟩

theorem Orderly.grows {grown : Forest} (o : h.Orderly) (hg : Grows Node.IsBare h.forest grown) :
    Orderly { h with forest := grown } := by
  refine ⟨o.sound.grows hg, ?_, ?_, o.mono⟩
  · cases hg with
    | addRoot hn => exact o.rooted.addRoot hn.1
    | graft => exact o.rooted.graft
  · intro i t ht hfresh
    cases hg with
    | addRoot => exact (o.lies ht hfresh).addRoot
    | graft => exact (o.lies ht hfresh).graft

theorem Orderly.checkpoint (o : h.Orderly) :
    Orderly { h with marks := h.marks ++ [⟨h.forest.mark, false⟩] } := by
  -- a mark taken now counts at least what any fresh mark counts
  have hcases : ∀ {i : Nat} {t : TakenMark}, (h.marks ++ [⟨h.forest.mark, false⟩])[i]? = some t →
      h.marks[i]? = some t ∨ h.marks.length ≤ i ∧ t = ⟨h.forest.mark, false⟩ := by
    intro i t ht
    rw [List.getElem?_append] at ht
    split at ht
    · exact .inl ht
    · rename_i hi
      refine .inr ⟨by omega, ?_⟩
      have hmem := List.mem_of_getElem? ht
      simpa using hmem
  refine ⟨o.sound, o.rooted, ?_, ?_⟩
  · intro i t ht hfresh
    rcases hcases ht with ht | ⟨_, rfl⟩
    · exact o.lies ht hfresh
    · exact o.rooted.liesIn_mark
  · intro i j s t hij hs ht hsf htf
    rcases hcases ht with ht | ⟨hj, rfl⟩
    · rcases hcases hs with hs | ⟨hi, rfl⟩
      · exact o.mono hij hs ht hsf htf
      · have := (List.getElem?_eq_some_iff.mp ht).1
        omega
    · rcases hcases hs with hs | ⟨_, rfl⟩
      · exact ⟨(o.lies hs hsf).nodes_le, (o.lies hs hsf).roots_le⟩
      · exact ⟨Nat.le_refl _, Nat.le_refl _⟩

theorem Orderly.rollback (o : h.Orderly) {i : Nat} {t : TakenMark} (ht : h.marks[i]? = some t)
    (hfresh : t.stale = false) : Orderly ⟨h.forest.rollback t.mark, staleFrom i h.marks⟩ := by
  have hfits := (o.lies ht hfresh).fits
  have hcut := rollback_eq_cut o.sound.linked o.sound.names t.mark
  refine ⟨o.sound.rollback t.mark, ?_, ?_, ?_⟩
  · rw [hcut]
    exact o.rooted.cut_iff.mpr hfits
  · intro j s hs hsf
    obtain ⟨hji, hs⟩ := fresh_of_staleFrom hs hsf
    obtain ⟨hnodes, hroots⟩ := o.mono hji hs ht hsf hfresh
    rw [hcut]
    exact (o.lies hs hsf).cut hfits hnodes hroots
  · intro j k s u hjk hs hu hsf huf
    exact o.mono hjk (fresh_of_staleFrom hs hsf).2 (fresh_of_staleFrom hu huf).2 hsf huf

theorem Orderly.step (o : h.Orderly) (hok : h.allows op = true) : (h.step op).Orderly := by
  rcases h.step_cases op with he | ⟨grown, hg, he⟩ | ⟨_, he⟩ | ⟨i, t, rfl, ht, he⟩
  · rw [he]; exact o
  · rw [he]; exact o.grows hg
  · rw [he]; exact o.checkpoint
  · rw [he]
    refine o.rollback ht ?_
    simpa [allows, ht] using hok

theorem Orderly.foldl : ∀ {ops : List Operation} {h : History}, h.Orderly → h.allowsAll ops = true →
    (ops.foldl History.step h).Orderly
  | [], _, o, _ => o
  | op :: ops, h, o, hok => by
    simp only [allowsAll, Bool.and_eq_true] at hok
    exact (o.step hok.1).foldl hok.2

end History

/-- Where no stale mark is gone back to, the roots are just the nodes without a parent, in the order of the arena.
From there a mark, stale or not, leads to exact roots again just if it fits the forest, and a mark that is not stale
does. -/
theorem run_roots_exact (ops : List Operation) (hok : ({} : History).allowsAll ops = true) :
    (History.run ops).forest.roots = (History.run ops).forest.parentless ∧
    ∀ t ∈ (History.run ops).marks,
      (((History.run ops).forest.rollback t.mark).roots = ((History.run ops).forest.rollback t.mark).parentless ↔
        t.mark.Fits (History.run ops).forest) ∧
      (t.stale = false → t.mark.Fits (History.run ops).forest) := by
  have o : (History.run ops).Orderly := History.orderly_empty.foldl hok
  refine ⟨rooted_iff.mp o.rooted, fun t ht => ⟨?_, fun hfresh => ?_⟩⟩
  · rw [← rooted_iff, rollback_eq_cut o.sound.linked o.sound.names]
    exact o.rooted.cut_iff
  · obtain ⟨i, hi⟩ := List.getElem?_of_mem ht
    exact (o.lies hi hfresh).fits

/-- The node of a class at the top, as it is handed in. -/
def bareClass (name : String) : BareNode := ⟨.ofClass { name := name }, rfl, rfl⟩

/-- Two trees and a mark, then back to the start and a tree of two nodes with another root behind it. -/
def rebuilding : List Operation :=
  [.checkpoint, .addRoot (bareClass "app/A"), .addRoot (bareClass "app/B"), .checkpoint, .rollback 0,
   .addRoot (bareClass "app/C"), .attach 0 (bareClass "app/C$1"), .addRoot (bareClass "app/D")]

theorem run_roots_exact_rebuilding : ({} : History).allowsAll rebuilding = true ∧
    (History.run rebuilding).forest.roots = (History.run rebuilding).forest.parentless ∧
    (History.run rebuilding).forest.roots = [0, 2] ∧
    (⟨⟨0, 0⟩, false⟩ ∈ (History.run rebuilding).marks ∧ Mark.Fits ⟨0, 0⟩ (History.run rebuilding).forest) ∧
    ⟨⟨2, 2⟩, true⟩ ∈ (History.run rebuilding).marks ∧ ¬ Mark.Fits ⟨2, 2⟩ (History.run rebuilding).forest :=
  have h := run_roots_exact rebuilding (by decide)
  ⟨by decide, h.1, by decide,
    ⟨by decide, (h.2 ⟨⟨0, 0⟩, false⟩ (by decide)).2 rfl⟩,
    by decide, fun hfits => absurd ((h.2 ⟨⟨2, 2⟩, true⟩ (by decide)).1.mpr hfits) (by decide)⟩

/-- The second mark is stale by then. It counts two nodes and two roots, and cuts off the second root's node but not
the root. -/
theorem roots_outside_arena : (History.run (rebuilding ++ [.rollback 1])).forest.size = 2 ∧
    (History.run (rebuilding ++ [.rollback 1])).forest.roots = [0, 2] ∧
    (History.run (rebuilding ++ [.rollback 1])).forest.parentless = [0] ∧
    (History.run (rebuilding ++ [.rollback 1])).forest.roots ≠
      (History.run (rebuilding ++ [.rollback 1])).forest.parentless := by
  decide

end ClassNest.Forest
