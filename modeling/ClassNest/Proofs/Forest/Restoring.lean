import ClassNest.Proofs.Forest.History

/-!
# Going back to where a mark was taken

A mark is taken, and then nodes are added below old parents and new ones, further marks are taken, and the arena goes
back to these in whatever order. Seen through a cut at the first mark the forest stays what it was all the while, but
for the names that new class nodes have taken over (`Since.step`): a name that leads to a new node has left the old one
for good, also if the new node is dropped before. So going back to the mark gives back all nodes, links and roots, and
gives back the names just if no new class had the name of an old one (`rollback_restores`).
-/
namespace ClassNest.Forest

/-- The forests that can come up with nodes that are handed in without links. -/
abbrev Reachable (f : Forest) : Prop := f.BuiltBy Node.IsBare

variable {f : Forest} {n : Node} {m m' : Mark} {p : NodeId} {names : List String}

theorem Reachable.sound (h : f.Reachable) : f.Sound := by
  induction h with
  | empty => exact sound_empty
  | grow _ hg ih => exact ih.grows hg
  | rollback _ m ih => exact ih.rollback m
  | note _ names ih => exact ⟨⟨ih.linked.mem_children, ih.linked.parent_lt, ih.linked.sorted⟩, ih.names⟩

theorem reachable_run (ops : List Operation) : (History.run ops).forest.Reachable := by
  refine History.run_induct (P := fun h => h.forest.Reachable) .empty (fun {h} op hr => ?_) ops
  rcases h.step_cases op with he | ⟨grown, hg, he⟩ | ⟨_, he⟩ | ⟨i, t, _, _, he⟩
  · rw [he]; exact hr
  · rw [he]; exact hr.grow hg
  · rw [he]; exact hr
  · rw [he]; exact hr.rollback t.mark

/-! ## Names that were taken over -/

/-- The forest in which some names lead nowhere any more. -/
def forget (f : Forest) (names : List String) : Forest :=
  { f with byName := f.byName.filter (·.1 ∉ names) }

theorem forget_nil : f.forget [] = f := by simp [forget]

theorem forget_forget (more : List String) : (f.forget names).forget more = f.forget (names ++ more) := by
  simp only [forget, List.filter_filter]
  congr 1
  apply List.filter_congr
  intro e _
  by_cases hn : e.1 ∈ names <;> simp [hn]

theorem find?_forget (name : String) :
    (f.forget names).find? name = if name ∈ names then none else f.find? name := by
  unfold find? forget
  induction f.byName with
  | nil => simp
  | cons e rest ih =>
    obtain ⟨key, i⟩ := e
    by_cases hk : key ∈ names
    · have hne : name ∉ names → name ≠ key := fun hn he => hn (he ▸ hk)
      rw [List.filter_cons_of_neg (by simp [hk]), ih, List.lookup_cons]
      split
      · rfl
      · rename_i hn
        rw [beq_false_of_ne (hne hn)]
    · rw [List.filter_cons_of_pos (by simp [hk]), List.lookup_cons, List.lookup_cons, ih]
      by_cases he : name = key
      · simp [he, hk]
      · rw [beq_false_of_ne he]

/-- The look-up gives the same answers as before just if the names that were taken over led nowhere. -/
theorem find?_forget_eq_iff :
    (∀ name, (f.forget names).find? name = f.find? name) ↔ ∀ name ∈ names, f.find? name = none := by
  simp only [find?_forget]
  constructor
  · intro h name hn
    have := h name
    rwa [if_pos hn, eq_comm] at this
  · intro h name
    split
    · rename_i hn
      exact (h name hn).symm
    · rfl

theorem forget_eq_self (h : ∀ name ∈ names, f.find? name = none) : f.forget names = f := by
  have hkeep : f.byName.filter (·.1 ∉ names) = f.byName := by
    refine List.filter_eq_self.mpr fun e he => ?_
    refine decide_eq_true fun hn => ?_
    exact find?_eq_none_iff.mp (h e.1 hn) e he rfl
  unfold forget
  rw [hkeep]

/-! ## What a cut sees of an operation -/

/-- A push behind the cut can be seen only by the name that it takes over. -/
theorem byName_push_cut (hm : m.nodes ≤ f.size) : (f.push n).byName.filter (·.2 < m.nodes) =
    (f.byName.filter (·.2 < m.nodes)).filter (·.1 ∉ n.className?.toList) := by
  unfold push Node.className?
  by_cases hl : n.isLambda = true
  · simp [hl]
  · simp only [hl, Bool.false_eq_true, ite_false, Option.toList_some, List.mem_singleton]
    rw [List.filter_cons_of_neg (by simpa using hm), List.filter_filter, List.filter_filter]
    apply List.filter_congr
    intro e _
    by_cases he : e.1 = n.qualifiedName <;> simp [he]

theorem cut_addRoot (hn : m.nodes ≤ f.size) (hr : m.roots ≤ f.roots.length) :
    (f.addRoot n).cut m = (f.cut m).forget n.className?.toList := by
  have hnodes : (f.nodes ++ [n]).take m.nodes = f.nodes.take m.nodes := List.take_append_of_le_length hn
  have hroots : (f.roots ++ [f.size]).take m.roots = f.roots.take m.roots := List.take_append_of_le_length hr
  have hnames := byName_push_cut (n := n) hn
  simp only [cut, forget, addRoot, push] at hnames ⊢
  rw [hnodes, hroots, hnames]

/-- The new node is behind the cut, and so is the link to it, also where it hangs on a node before the cut. -/
theorem cut_graft (hn : m.nodes ≤ f.size) : (f.graft p n).cut m = (f.cut m).forget n.className?.toList := by
  have hnodes : ((f.graft p n).cut m).nodes = (f.cut m).nodes := by
    apply List.ext_getElem?
    intro i
    show ((f.graft p n).cut m).node? i = (f.cut m).node? i
    rw [node?_cut, node?_cut]
    by_cases hi : i < m.nodes
    · -- an old node, whose children are the same before the cut, whether it is the parent or not
      rw [if_pos hi, if_pos hi, node?_graft, if_neg (by omega), Option.map_map]
      congr 1
      funext x
      by_cases hp : p = i <;> simp [hp, hn]
    · rw [if_neg hi, if_neg hi]
  have hnames := byName_push_cut (n := { n with parent := some p }) hn
  simp only [cut, forget] at hnodes ⊢
  rw [hnodes]
  congr 1

theorem cut_cut (hn : m.nodes ≤ m'.nodes) (hr : m.roots ≤ m'.roots) : (f.cut m').cut m = f.cut m := by
  have hlinks : ∀ x : Node, { x with children := (x.children.filter (· < m'.nodes)).filter (· < m.nodes) } =
      { x with children := x.children.filter (· < m.nodes) } := by
    intro x
    rw [filter_lt_filter_lt (fun i => i) hn]
  simp only [cut, ← List.map_take, List.take_take, Nat.min_eq_left hn, Nat.min_eq_left hr, List.map_map,
    Function.comp_def, hlinks, filter_lt_filter_lt Prod.snd hn]

theorem Sound.cut_mark (h : f.Sound) : f.cut f.mark = f := by
  rw [← rollback_eq_cut h.linked h.names]
  exact if_pos ⟨Nat.le_refl _, Nat.le_refl _⟩

/-! ## What has happened since a mark -/

namespace History
variable {h : History} {op : Operation}

/-- The nodes that operations add, in order, also those that are dropped again. -/
def added (h : History) : List Operation → List Node
  | [] => []
  | op :: ops => (h.adds? op).toList ++ (h.step op).added ops

/-- A forest of which a mark was just taken. -/
def marked (f : Forest) : History := History.step ⟨f, []⟩ .checkpoint

theorem mark_of_mem_staleFrom {marks : List TakenMark} {i : Nat} {t : TakenMark} (ht : t ∈ staleFrom i marks) :
    ∃ s ∈ marks, s.mark = t.mark := by
  obtain ⟨j, hj⟩ := List.getElem?_of_mem ht
  rw [getElem?_staleFrom] at hj
  obtain ⟨s, hs, rfl⟩ := Option.map_eq_some_iff.mp hj
  exact ⟨s, List.mem_of_getElem? hs, rfl⟩

/-- What a mark of `f` still sees of `f`: all but the names that were taken over since. The marks that were taken since
lie behind it. -/
structure Since (f : Forest) (names : List String) (h : History) : Prop where
  sound : h.forest.Sound
  nodes_le : f.size ≤ h.forest.size
  roots_le : f.roots.length ≤ h.forest.roots.length
  seen : h.forest.cut f.mark = f.forget names
  marks_le : ∀ t ∈ h.marks, f.size ≤ t.mark.nodes ∧ f.roots.length ≤ t.mark.roots

theorem since_marked (hf : f.Sound) : Since f [] (marked f) where
  sound := hf
  nodes_le := Nat.le_refl _
  roots_le := Nat.le_refl _
  seen := by rw [forget_nil]; exact hf.cut_mark
  marks_le := by
    intro t ht
    have hmark : t = ⟨f.mark, false⟩ := by simpa [marked, step] using ht
    rw [hmark]
    exact ⟨Nat.le_refl _, Nat.le_refl _⟩

/-- An operation takes over the name of the class that it adds, and changes nothing else that the mark sees. -/
theorem Since.step (s : Since f names h) (op : Operation) :
    Since f (names ++ (h.adds? op).toList.filterMap (·.className?)) (h.step op) := by
  have hsound := s.sound.step op
  cases ha : h.adds? op with
  | some n =>
    have hname : [n].filterMap (·.className?) = n.className?.toList := by cases hn : n.className? <;> simp [hn]
    rw [Option.toList_some, hname]
    obtain ⟨_, he | ⟨p, _, he⟩⟩ := step_of_adds? ha
    · rw [he] at hsound ⊢
      refine ⟨hsound, ?_, ?_, ?_, s.marks_le⟩
      · rw [size_addRoot]; exact Nat.le_succ_of_le s.nodes_le
      · rw [roots_addRoot, List.length_append]; exact Nat.le_add_right_of_le s.roots_le
      · rw [cut_addRoot s.nodes_le s.roots_le, s.seen, forget_forget]
    · rw [he] at hsound ⊢
      refine ⟨hsound, ?_, s.roots_le, ?_, s.marks_le⟩
      · rw [size_graft]; exact Nat.le_succ_of_le s.nodes_le
      · rw [cut_graft s.nodes_le, s.seen, forget_forget]
  | none =>
    rw [Option.toList_none, List.filterMap_nil, List.append_nil]
    rcases step_of_adds?_eq_none ha with he | ⟨_, he⟩ | ⟨i, t, _, ht, he⟩
    · rw [he]; exact s
    · rw [he]
      refine ⟨s.sound, s.nodes_le, s.roots_le, s.seen, ?_⟩
      intro t ht
      rcases List.mem_append.mp ht with ht | ht
      · exact s.marks_le t ht
      · rw [List.mem_singleton.mp ht]
        exact ⟨s.nodes_le, s.roots_le⟩
    · -- the arena goes back to a mark behind the first one, which the cut does not notice
      obtain ⟨hnodes, hroots⟩ := s.marks_le t (List.mem_of_getElem? ht)
      have hcut := rollback_eq_cut s.sound.linked s.sound.names t.mark
      rw [he] at hsound ⊢
      refine ⟨hsound, ?_, ?_, ?_, ?_⟩
      · rw [hcut, size_cut]; exact Nat.le_min.mpr ⟨hnodes, s.nodes_le⟩
      · show f.roots.length ≤ (h.forest.rollback t.mark).roots.length
        rw [hcut]
        show f.roots.length ≤ (h.forest.roots.take t.mark.roots).length
        rw [List.length_take]
        exact Nat.le_min.mpr ⟨hroots, s.roots_le⟩
      · rw [hcut, cut_cut hnodes hroots]; exact s.seen
      · intro u hu
        obtain ⟨v, hv, hmark⟩ := mark_of_mem_staleFrom hu
        rw [← hmark]
        exact s.marks_le v hv

theorem Since.foldl : ∀ (ops : List Operation) {names : List String} {h : History}, Since f names h →
    Since f (names ++ (h.added ops).filterMap (·.className?)) (ops.foldl History.step h)
  | [], names, h, s => by
    rw [added, List.filterMap_nil, List.append_nil]
    exact s
  | op :: ops, names, h, s => by
    rw [added, List.filterMap_append, ← List.append_assoc]
    exact (s.step op).foldl ops

end History

/-- Whatever was added since a mark was taken, and whichever marks were taken and gone back to in between, going back to
it gives back the nodes with their links, the roots and the nested classes without a node. The names lead where they
led just if no class node that was added, dropped again or not, had a name that led to a node already, and then the
forest is the same altogether. -/
theorem rollback_restores {f : Forest} (hf : f.Reachable) (ops : List Operation) :
    let back := (ops.foldl History.step (.marked f)).forest.rollback f.mark
    back.nodes = f.nodes ∧ back.roots = f.roots ∧ back.unattached = f.unattached ∧
    ((∀ name, back.find? name = f.find? name) ↔
      ∀ n ∈ (History.marked f).added ops, n.kind ≠ .lambda → f.find? n.qualifiedName = none) ∧
    (back = f ↔ ∀ name, back.find? name = f.find? name) := by
  have s := (History.since_marked hf.sound).foldl ops
  have hback : (ops.foldl History.step (.marked f)).forest.rollback f.mark =
      f.forget (((History.marked f).added ops).filterMap (·.className?)) := by
    rw [rollback_eq_cut s.sound.linked s.sound.names, s.seen, List.nil_append]
  have htaken : (∀ name ∈ ((History.marked f).added ops).filterMap (·.className?), f.find? name = none) ↔
      ∀ n ∈ (History.marked f).added ops, n.kind ≠ .lambda → f.find? n.qualifiedName = none := by
    constructor
    · intro h n hn hk
      refine h _ (List.mem_filterMap.mpr ⟨n, hn, Node.className?_eq_some.mpr ⟨?_, rfl⟩⟩)
      exact beq_eq_false_iff_ne.mpr hk
    · intro h name hname
      obtain ⟨n, hn, hc⟩ := List.mem_filterMap.mp hname
      obtain ⟨hl, rfl⟩ := Node.className?_eq_some.mp hc
      exact h n hn (beq_eq_false_iff_ne.mp hl)
  simp only [hback]
  refine ⟨rfl, rfl, rfl, find?_forget_eq_iff.trans htaken, ?_⟩
  constructor
  · intro he name
    rw [he]
  · intro h
    exact forget_eq_self (find?_forget_eq_iff.mp h)

/-- A forest with a root outside the arena, as a stale mark can leave it, and a nested class that no tree holds. -/
def strayRoot : Forest := { (History.run (rebuilding ++ [.rollback 1])).forest with unattached := ["app/X"] }

/-- A lambda of a class that is there, a nested class that is dropped again, and a new root. -/
def sprouting (nested : String) : List Operation :=
  [.attach 0 ⟨.ofLambda { (default : LambdaInfo) with declaringClass := "app/C" }, rfl, rfl⟩, .checkpoint,
   .attach 1 (bareClass nested), .rollback 1, .addRoot (bareClass "app/E")]

/-- A nested class with a new name leaves no trace, but one with an old name takes it along. -/
theorem rollback_restores_strayRoot : strayRoot.Reachable ∧
    ((sprouting "app/C$1$1").foldl History.step (.marked strayRoot)).forest.rollback strayRoot.mark = strayRoot ∧
    ((sprouting "app/C$1").foldl History.step (.marked strayRoot)).forest.rollback strayRoot.mark ≠ strayRoot ∧
    (((sprouting "app/C$1").foldl History.step (.marked strayRoot)).forest.rollback strayRoot.mark).nodes =
      strayRoot.nodes :=
  have hreach : strayRoot.Reachable := (reachable_run _).note _
  have hnew := (rollback_restores hreach (sprouting "app/C$1$1")).2.2.2
  have hold := rollback_restores hreach (sprouting "app/C$1")
  ⟨hreach, hnew.2.mpr (hnew.1.mpr (by decide)),
    fun he => absurd (hold.2.2.2.1.mp (hold.2.2.2.2.mp he)) (by decide), hold.1⟩

end ClassNest.Forest
