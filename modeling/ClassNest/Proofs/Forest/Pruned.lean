import ClassNest.Proofs.Forest.Links

/-!
# The forest without its lambdas

`withoutLambdas` deletes all lambdas from an arena, numbers the nodes that stay in their order and leads
every link to the new number. It commutes with growing: a new root, or a class below a node, is the same step on
the forest without lambdas, at the place where the parent stands there, and a lambda is no step at all.
-/
namespace ClassNest

/-- Changing one entry of a list and then filtering it, or the other way round, if no entry is kept or
dropped because of the change. -/
theorem filter_modify {α : Type} {q : α → Bool} {a : α → α} (h : ∀ x, q (a x) = q x) (xs : List α) (i : Nat) :
    (xs.modify i a).filter q =
      if xs[i]?.any q then (xs.filter q).modify ((xs.take i).countP q) a else xs.filter q := by
  induction xs generalizing i with
  | nil => simp
  | cons x xs ih =>
    cases i with
    | zero => by_cases hx : q x <;> simp [h, hx]
    | succ i => by_cases hx : q x <;> simp [hx, ih, apply_ite (x :: ·)]

/-- The node with its links led elsewhere; a link that leads nowhere is dropped. -/
def Node.relink (place : NodeId → Option NodeId) (n : Node) : Node :=
  { n with parent := n.parent.bind place, children := n.children.filterMap place }

theorem Node.relink_eq_self {n : Node} (hp : n.parent = none) (hc : n.children = []) (place : NodeId → Option NodeId) :
    n.relink place = n := by
  cases n
  simp_all [relink]

/-- The node with more children. -/
def Node.withChildren (n : Node) (more : List NodeId) : Node := { n with children := n.children ++ more }

@[simp] theorem Node.withChildren_nil (n : Node) : n.withChildren [] = n := by simp [withChildren]

/-- A new child that is led elsewhere with everything else. -/
theorem map_relink_modify (place : NodeId → Option NodeId) (ms : List Node) (q i : NodeId) :
    (ms.modify q (·.withChildren [i])).map (·.relink place) =
      (ms.map (·.relink place)).modify q (·.withChildren (place i).toList) := by
  refine map_modify (fun m => ?_) ms q
  cases hi : place i <;> simp [Node.relink, Node.withChildren, hi]

namespace Forest

/-- The nodes that are no lambdas. -/
def classNodes (f : Forest) : List Node := f.nodes.filter (!·.isLambda)

/-- The number of class nodes before `i`. -/
def rank (f : Forest) (i : NodeId) : NodeId := (f.nodes.take i).countP (!·.isLambda)

/-- Where the node at `i` stands when the lambdas are gone. -/
def place? (f : Forest) (i : NodeId) : Option NodeId := if f.isLambda i then none else some (f.rank i)

/-- The forest without its lambdas, the class nodes numbered anew in their order. -/
def withoutLambdas (f : Forest) : Forest where
  nodes := f.classNodes.map (·.relink f.place?)
  roots := f.roots.filterMap f.place?
  unattached := f.unattached
  byName := f.byName.filterMap fun e => (f.place? e.2).map (e.1, ·)

/-- All links of the arena stay inside it. -/
structure Inside (f : Forest) : Prop where
  linked : f.Linked
  rooted : f.Rooted
  names : ∀ e ∈ f.byName, e.2 < f.size

section
variable {f f' : Forest} {n : Node} {p i : Nat}

theorem Inside.addRoot (h : f.Inside) (hp : n.parent = none) (hc : n.children = []) : (f.addRoot n).Inside :=
  ⟨h.linked.addRoot hp hc, h.rooted.addRoot hp, by rw [size_addRoot]; exact bounded_push h.names⟩

theorem Inside.graft (h : f.Inside) (hc : n.children = []) (hp : p < f.size) : (f.graft p n).Inside :=
  ⟨h.linked.graft hc hp, h.rooted.graft, by rw [size_graft]; exact bounded_push h.names⟩

/-! ## Places -/

/-- Which nodes are lambdas. -/
def lambdas (f : Forest) : List Bool := f.nodes.map (·.isLambda)

theorem nodes_graft :
    (f.graft p n).nodes = (f.nodes ++ [{ n with parent := some p }]).modify p (·.withChildren [f.size]) := rfl

@[simp] theorem lambdas_addRoot : (f.addRoot n).lambdas = f.lambdas ++ [n.isLambda] := by
  simp [lambdas, addRoot, push]

@[simp] theorem lambdas_graft : (f.graft p n).lambdas = f.lambdas ++ [n.isLambda] := by
  have hchild : ∀ m : Node, (m.withChildren [f.size]).isLambda = id m.isLambda := fun _ => rfl
  unfold lambdas
  rw [nodes_graft, map_modify hchild]
  simp [Node.isLambda]

theorem length_lambdas : f.lambdas.length = f.size := List.length_map _

theorem place?_eq : f.place? i =
    if f.lambdas[i]?.getD false then none else some ((f.lambdas.take i).countP (!·)) := by
  have hlambda : f.isLambda i = f.lambdas[i]?.getD false := by
    simp only [isLambda, node?, lambdas, List.getElem?_map]
    cases f.nodes[i]? <;> rfl
  simp [place?, rank, hlambda, lambdas, ← List.map_take, List.countP_map, Function.comp_def]

/-- A node keeps its place when others come after it. -/
theorem place?_of_grown (h : f.lambdas <+: f'.lambdas) (hi : i < f.size) : f'.place? i = f.place? i := by
  obtain ⟨more, hmore⟩ := h
  rw [← length_lambdas] at hi
  simp [place?_eq, ← hmore, List.getElem?_append_left hi, List.take_append_of_le_length (Nat.le_of_lt hi)]

theorem size_withoutLambdas : f.withoutLambdas.size = f.lambdas.countP (!·) := by
  simp [withoutLambdas, classNodes, size, lambdas, List.countP_map, Function.comp_def, ← List.countP_eq_length_filter]

theorem size_withoutLambdas_le : f.withoutLambdas.size ≤ f.size := by
  rw [size_withoutLambdas, ← length_lambdas]
  exact List.countP_le_length

/-- A place is one of the forest without lambdas. -/
theorem place?_lt {q : NodeId} (hi : i < f.size) (hq : f.place? i = some q) : q < f.withoutLambdas.size := by
  rw [← length_lambdas] at hi
  rw [place?_eq, List.getElem?_eq_getElem hi, Option.getD_some] at hq
  split at hq
  · cases hq
  · rename_i hclass
    cases hq
    rw [size_withoutLambdas]
    calc (f.lambdas.take i).countP (!·) < (f.lambdas.take (i + 1)).countP (!·) := by
          rw [List.take_succ_eq_append_getElem hi, List.countP_append]
          simp [hclass]
      _ ≤ f.lambdas.countP (!·) := (List.take_sublist _ _).countP_le

/-- The next node comes last, if it is no lambda. -/
theorem place?_size (h : f'.lambdas = f.lambdas ++ [n.isLambda]) :
    f'.place? f.size = if n.isLambda then none else some f.withoutLambdas.size := by
  rw [place?_eq, h, size_withoutLambdas, ← length_lambdas]
  simp

/-! ## What was there before -/

theorem Inside.relink_eq (h : f.Inside) (hl : f.lambdas <+: f'.lambdas) {m : Node}
    (hm : m ∈ f.nodes) : m.relink f'.place? = m.relink f.place? := by
  obtain ⟨i, hi⟩ := List.getElem?_of_mem hm
  have hnode : f.node? i = some m := hi
  have hparent : m.parent.bind f'.place? = m.parent.bind f.place? := by
    cases hp : m.parent with
    | none => rfl
    | some p =>
      have hp : f.parent? i = some p := by simp [parent?, hnode, hp]
      exact place?_of_grown hl (Nat.lt_trans (h.linked.parent_lt hp) (lt_size_of_parent? hp))
  have hchildren : m.children.filterMap f'.place? = m.children.filterMap f.place? := by
    refine List.filterMap_congr fun j hj => place?_of_grown hl (h.linked.child_lt_size (p := i) ?_)
    simpa [children, hnode] using hj
  simp [Node.relink, hparent, hchildren]

/-- Whatever comes after them, the nodes, roots and names of `f` are renumbered in the same way. -/
theorem Inside.withoutLambdas_of_grown (h : f.Inside) (hl : f.lambdas <+: f'.lambdas) :
    f.classNodes.map (·.relink f'.place?) = f.withoutLambdas.nodes ∧
    f.roots.filterMap f'.place? = f.withoutLambdas.roots ∧
    (f.byName.filterMap fun e => (f'.place? e.2).map (e.1, ·)) = f.withoutLambdas.byName := by
  refine ⟨?_, ?_, ?_⟩
  · exact List.map_congr_left fun m hm => h.relink_eq hl (List.mem_filter.mp hm).1
  · exact List.filterMap_congr fun r hr => place?_of_grown hl (h.rooted.mem_roots.mp hr).1
  · exact List.filterMap_congr fun e he => by rw [place?_of_grown hl (h.names e he)]

/-- A class that comes last is found at its place, and other names where they were. -/
theorem Inside.byName_push (h : f.Inside) (hn : n.isLambda = false) (hl : f'.lambdas = f.lambdas ++ [n.isLambda]) :
    ((f.push n).byName.filterMap fun e => (f'.place? e.2).map (e.1, ·)) = (f.withoutLambdas.push n).byName := by
  have hsize := place?_size hl
  have hcomm : ∀ (l : List (String × NodeId)) (name : String),
      ((l.filter (·.1 != name)).filterMap fun e => (f'.place? e.2).map (e.1, ·)) =
        (l.filterMap fun e => (f'.place? e.2).map (e.1, ·)).filter (·.1 != name) := by
    intro l name
    induction l with
    | nil => rfl
    | cons e l ih =>
      by_cases he : e.1 = name <;> cases hp : f'.place? e.2 <;> simp [he, hp, ih]
  simp only [push, hn, Bool.false_eq_true, if_false]
  rw [List.filterMap_cons, hsize, hcomm, (h.withoutLambdas_of_grown ⟨_, hl.symm⟩).2.2]
  simp [hn]

/-! ## Growing -/

theorem eq_of_lists (hn : f.nodes = f'.nodes) (hr : f.roots = f'.roots) (hu : f.unattached = f'.unattached)
    (hb : f.byName = f'.byName) : f = f' := by
  cases f; cases f'
  simp_all

theorem withoutLambdas_addRoot (h : f.Inside) (hn : n.isLambda = false) (hp : n.parent = none) (hc : n.children = []) :
    (f.addRoot n).withoutLambdas = f.withoutLambdas.addRoot n := by
  have hl := lambdas_addRoot (f := f) (n := n)
  obtain ⟨hnodes, hroots, _⟩ := h.withoutLambdas_of_grown ⟨_, hl.symm⟩
  refine eq_of_lists ?_ ?_ rfl (h.byName_push hn hl)
  · have hkept : (f.addRoot n).classNodes = f.classNodes ++ [n] := by simp [classNodes, addRoot, push, hn]
    show (f.addRoot n).classNodes.map (·.relink (f.addRoot n).place?) = f.withoutLambdas.nodes ++ [n]
    rw [← hnodes, hkept]
    simp [Node.relink_eq_self hp hc]
  · show (f.roots ++ [f.size]).filterMap (f.addRoot n).place? = f.withoutLambdas.roots ++ [f.withoutLambdas.size]
    rw [← hroots]
    simp [place?_size hl, hn]

theorem place?_eq_some {q : NodeId} : f.place? p = some q ↔ f.isLambda p = false ∧ f.rank p = q := by
  unfold place?
  cases f.isLambda p <;> simp

theorem place?_of_className? {a : String} (h : f.className? p = some a) : f.place? p = some (f.rank p) := by
  obtain ⟨m, hm, hk, _⟩ := className?_iff_node?.mp h
  refine place?_eq_some.mpr ⟨?_, rfl⟩
  simpa [isLambda, hm, Node.isLambda] using hk

theorem classNodes_graft {q : NodeId} (hp : p < f.size) (hq : f.place? p = some q) :
    (f.graft p n).classNodes =
      (f.classNodes ++ if n.isLambda then [] else [{ n with parent := some p }]).modify q
        (·.withChildren [f.size]) := by
  obtain ⟨hclass, hrank⟩ := place?_eq_some.mp hq
  have hchild : ∀ m : Node, (!(m.withChildren [f.size]).isLambda) = !m.isLambda := fun _ => rfl
  have hat : f.nodes[p]?.any (fun m => !m.isLambda) = true := by
    simpa [isLambda, node?, List.getElem?_eq_getElem hp] using hclass
  unfold rank at hrank
  unfold classNodes
  rw [nodes_graft, filter_modify hchild, List.getElem?_append_left hp, if_pos hat,
    List.take_append_of_le_length (Nat.le_of_lt hp), hrank, List.filter_append]
  cases hn : n.isLambda <;> simp_all [Node.isLambda]

/-- A node below `p`: if it is a class it comes last, and the node at `q`, where `p` stands, has it as a child. -/
theorem Inside.nodes_graft {q : NodeId} (h : f.Inside) (hc : n.children = []) (hp : p < f.size)
    (hq : f.place? p = some q) :
    (f.graft p n).withoutLambdas.nodes =
      (f.withoutLambdas.nodes ++ if n.isLambda then [] else [{ n with parent := some q }]).modify q
        (·.withChildren ((f.graft p n).place? f.size).toList) := by
  have hl := lambdas_graft (f := f) (p := p) (n := n)
  have hnew : Node.relink (f.graft p n).place? { n with parent := some p } = { n with parent := some q } := by
    simp [Node.relink, hc, place?_of_grown ⟨_, hl.symm⟩ hp, hq]
  show (f.graft p n).classNodes.map (·.relink (f.graft p n).place?) = _
  rw [classNodes_graft hp hq, map_relink_modify, List.map_append, (h.withoutLambdas_of_grown ⟨_, hl.symm⟩).1]
  cases n.isLambda <;> simp [hnew]

/-- A class below the node at `p` comes below it at its place `q`. -/
theorem withoutLambdas_graft_class {q : NodeId} (h : f.Inside) (hn : n.isLambda = false) (hc : n.children = [])
    (hp : p < f.size) (hq : f.place? p = some q) :
    (f.graft p n).withoutLambdas = f.withoutLambdas.graft q n := by
  have hl := lambdas_graft (f := f) (p := p) (n := n)
  refine eq_of_lists ?_ (h.withoutLambdas_of_grown ⟨_, hl.symm⟩).2.1 rfl (h.byName_push hn hl)
  rw [h.nodes_graft hc hp hq, place?_size hl, hn]
  rfl

/-- A lambda is gone. -/
theorem withoutLambdas_graft_lambda {q : NodeId} (h : f.Inside) (hn : n.isLambda = true) (hc : n.children = [])
    (hp : p < f.size) (hq : f.place? p = some q) : (f.graft p n).withoutLambdas = f.withoutLambdas := by
  have hl := lambdas_graft (f := f) (p := p) (n := n)
  obtain ⟨_, hroots, hnames⟩ := h.withoutLambdas_of_grown ⟨_, hl.symm⟩
  refine eq_of_lists ?_ hroots rfl ?_
  · rw [h.nodes_graft hc hp hq, place?_size hl, hn]
    simp only [ite_true, Option.toList_none, Node.withChildren_nil, List.append_nil]
    exact List.modify_id q _
  · have hbyName : (f.graft p n).byName = f.byName := by
      show (if n.isLambda then f.byName else _) = _
      rw [hn]; rfl
    rw [← hnames, ← hbyName]
    rfl

end
end Forest
end ClassNest
